import Kreav.Lib.Protocols
import Kreav.SettlementSteps

/-!
# Rules for the settlement methods

How each of the settlement methods follows a protocol, from how its requests and the methods
it calls follow it. The premises have the phases after each call as predicates, one premise
for each way on.
-/

open Async Prog

namespace Kreav

variable {σ : Type} {A : Protocol backend σ} {X Y : Failure → σ → Prop} {P : σ → Prop} {φ : σ}

/-! ## Reading the network -/

/-- The trustline check catches what its reads throw. -/
theorem follows_findRecipientsMissingTrustline_of
    (hread : ∀ address, (await (.getUsdcBalance address)).Stays A φ) :
    ∀ recipients : List RecipientInput, (findRecipientsMissingTrustline recipients).Follows A
      (fun _ φ' => φ' = φ) X φ
  | [] => rfl
  | r :: rest => by
    refine Follows.bind (R := fun _ φ' => φ' = φ) (Follows.tryCatch (Y := fun _ φ' => φ' = φ)
      (Follows.bind (hread r.address) ?_) ?_) ?_
    · exact fun _ _ h => h
    · exact fun _ _ h => h
    intro missing φ' h
    rw [h]
    exact Follows.bind (follows_findRecipientsMissingTrustline_of hread rest) fun _ _ h => h

theorem follows_sorobanIsSettled_of {id : String} {R : Bool → σ → Prop}
    (haccount : (await .getAccount).Follows A (fun _ => P) Y φ)
    (hsim : ∀ φ, P φ → (await (.simulateIsSettled id)).Follows A
      (fun (sim : IsSettledSimulation) => R (decide (sim = .restore ∨ sim = .value true))) Y φ)
    (herror : ∀ φ, R false φ → Y .isSettledSimulation φ) :
    (sorobanIsSettled id).Follows A R Y φ := by
  refine Follows.bind haccount fun _ φ hφ => Follows.bind (hsim φ hφ) ?_
  intro sim φ h
  cases sim with
  | error => exact herror φ h
  | restore => exact h
  | value settled => cases settled <;> exact h

theorem follows_checkSettled_of {id : String} {R : Bool → σ → Prop}
    (h : (sorobanIsSettled id).Follows A R (fun _ => R false) φ) :
    (checkSettled id).Follows A R X φ :=
  Follows.tryCatch h fun _ _ h => h

theorem follows_checkFloat_of {cfg : StellarConfig} {id : String} {amountUsd : Usd}
    {R : Bool → σ → Prop}
    (hread : (await (.getUsdcBalance cfg.platformWalletAddress)).Follows A (fun _ => P)
      (fun _ => R true) φ)
    (hfunded : ∀ φ, P φ → R true φ)
    (hfail : ∀ φ, P φ → (setStatus id .settlementFailed).Follows A (fun _ => R false)
      (fun _ => R true) φ) :
    (checkFloat cfg id amountUsd).Follows A R X φ := by
  refine Follows.tryCatch (Y := fun _ => R true) (Follows.bind hread ?_) fun _ _ h => h
  intro float φ hφ
  dsimp only
  split
  · exact Follows.bind (hfail φ hφ) fun _ _ h => h
  · exact hfunded φ hφ

/-! ## One attempt -/

theorem follows_submitSettle_of {tx : Tx} {R : SendStatus → σ → Prop}
    {Q : InvokeResult → σ → Prop}
    (hsim : (await (.simulateSettle tx)).Follows A (fun _ => P) X φ)
    (hrejected : ∀ φ, P φ → X .settlementSimulation φ)
    (hsend : ∀ φ, P φ → (await (.sendTransaction tx)).Follows A R X φ)
    (hrefused : ∀ status φ, status.accepted = false → R status φ → X .settlementSubmission φ)
    (hpoll : ∀ status φ, status.accepted = true → R status φ →
      (pollTransaction (.onChain tx)).Follows A Q X φ) :
    (submitSettle tx).Follows A Q X φ := by
  refine Follows.bind hsim fun simulated φ hφ => ?_
  cases simulated with
  | false => exact hrejected φ hφ
  | true =>
    refine Follows.bind (hsend φ hφ) fun status φ hR => ?_
    cases status with
    | pending => exact hpoll _ φ rfl hR
    | duplicate => exact hpoll _ φ rfl hR
    | tryAgainLater => exact hrefused _ φ rfl hR
    | error => exact hrefused _ φ rfl hR

/-- The errors that are not `known` become `settlementNetwork`. -/
theorem follows_invokeSettle_of {cfg : StellarConfig} {id : String} {totalAmountBase : ℤ}
    {recipients : List RecipientInput} {Q : InvokeResult → σ → Prop}
    (haccount : (await .getAccount).Follows A (fun _ => P) Y φ)
    (hbuild : ∀ φ, P φ → Y .rpc φ)
    (hsubmit : ∀ tx φ, tx.orderRef = id → P φ → (submitSettle tx).Follows A Q Y φ)
    (hknown : ∀ e φ, e.known = true → Y e φ → X e φ)
    (hnetwork : ∀ e φ, e.known = false → Y e φ → X .settlementNetwork φ) :
    (invokeSettle cfg id totalAmountBase recipients).Follows A Q X φ := by
  refine Follows.tryCatch (Y := Y) (Follows.bind haccount ?_) fun e φ h => ?_
  · rintro ⟨sequence, now⟩ φ hφ
    cases hb : buildSettle cfg sequence now id totalAmountBase recipients with
    | none =>
      simp only [hb]
      exact hbuild φ hφ
    | some tx =>
      simp only [hb]
      exact hsubmit tx φ (buildSettle_eq_some hb).2.1 hφ
  · dsimp only
    split
    · next hk => exact hknown e φ hk h
    · next hk => exact hnetwork e φ (by simpa using hk) h

/-! ## Handling a payment -/

variable {cfg : StellarConfig} {payload : PaymentReceivedPayload} {order : Order}
  {Q : Unit → σ → Prop}

theorem follows_settleCollaborators_of {collaborators : List Collaborator}
    {R F : Bool → σ → Prop}
    (htrustline : (findRecipientsMissingTrustline (recipientInputs collaborators)).Follows A
      (fun _ => P) X φ)
    (hfail : ∀ φ, P φ → (setStatus payload.orderId .settlementFailed).Follows A Q X φ)
    (hcheck : ∀ φ, P φ → (checkSettled payload.orderId).Follows A R X φ)
    (hrecover : ∀ φ, R true φ → (recoverAlreadySettled payload.orderId payload.amountUsd
      payload.amountUsd.toBase order.txHash (recipientInputs collaborators)
        collaborators).Follows A Q X φ)
    (hfloat : ∀ φ, R false φ →
      (checkFloat cfg payload.orderId payload.amountUsd).Follows A F X φ)
    (hretry : ∀ φ, F true φ → (settleWithRetry cfg payload.orderId payload.amountUsd
      (recipientInputs collaborators) collaborators maxRetries).Follows A Q X φ)
    (hunfunded : ∀ φ, F false φ → Q () φ) :
    (settleCollaborators cfg payload order collaborators).Follows A Q X φ := by
  refine Follows.bind htrustline fun missing φ hφ => ?_
  split
  · exact hfail φ hφ
  refine Follows.bind (hcheck φ hφ) fun settled φ hR => ?_
  cases settled with
  | true => exact hrecover φ hR
  | false =>
    refine Follows.bind (hfloat φ hR) fun funded φ hF => ?_
    cases funded with
    | true => exact hretry φ hF
    | false => exact hunfunded φ hF

theorem follows_settlePending_of
    (hread : (await (.collaboratorFindMany order.productId)).Follows A (fun _ => P) X φ)
    (hfail : ∀ φ, P φ → (setStatus payload.orderId .settlementFailed).Follows A Q X φ)
    (hsettle : ∀ collaborators φ, P φ →
      (settleCollaborators cfg payload order collaborators).Follows A Q X φ) :
    (settlePending cfg payload order).Follows A Q X φ := by
  refine Follows.bind hread fun collaborators φ hφ => ?_
  split
  · exact hfail φ hφ
  split
  · exact hfail φ hφ
  split
  · exact hfail φ hφ
  · exact hsettle collaborators φ hφ

theorem follows_settleOrder_of {R : Option (Order × String) → σ → Prop} {S : Order → σ → Prop}
    (hread : (await (.orderFindUnique payload.orderId)).Follows A R X φ)
    (hnone : ∀ φ, R none φ → Q () φ)
    (hinvalid : ∀ order creatorId φ, R (some (order, creatorId)) φ →
      X (.invalidStateTransition order.status .settlementPending) φ)
    (hclaim : ∀ order creatorId φ, R (some (order, creatorId)) φ →
      (setStatus payload.orderId .settlementPending).Follows A (fun _ => S order) X φ)
    (hpending : ∀ order φ, S order φ → (settlePending cfg payload order).Follows A Q X φ) :
    (settleOrder cfg payload).Follows A Q X φ := by
  refine Follows.bind hread fun found φ hR => ?_
  cases found with
  | none => exact hnone φ hR
  | some p =>
    obtain ⟨order, creatorId⟩ := p
    dsimp only
    split
    · exact hinvalid order creatorId φ hR
    · exact Follows.bind (hclaim order creatorId φ hR) fun _ φ hS => hpending order φ hS

end Kreav
