import Kreav.PricedOrders
import Kreav.ContractErrors
import Kreav.Lib.Regex

/-!
# The price validator

The pattern of `CreateProductDto.priceUsd`, and which texts it accepts. Its lookahead leaves
out the zeros "0", "0.0" and "0.00", but a zero with more digits before the point passes.

`price_accepted_iff` : the pattern accepts the decimals of at least 0.01, and an accepted
price settles, except for these zeros (`PaddedZero`).
-/

open Async Regex

namespace Kreav

namespace PriceTexts

/-- `\d{lo,hi}`. -/
def digits (lo : ℕ) (hi : Option ℕ) : Regex :=
  .times Char.isDigit lo hi

/-- One character. -/
def char (c : Char) : Regex :=
  .cls fun d => d = c

/-- `\d+(\.\d{1,2})?$`. -/
def decimal : Regex :=
  .seq (digits 1 none) (.seq (.opt (.seq (char '.') (digits 1 (some 2)))) .atEnd)

/-- `0(\.0{1,2})?$`. -/
def zero : Regex :=
  .seq (char '0') (.seq (.opt (.seq (char '.') (.times (fun d => d = '0') 1 (some 2)))) .atEnd)

/-- `/^(?!0(\.0{1,2})?$)\d+(\.\d{1,2})?$/`. -/
def priceUsd : Regex :=
  .seq (.notAhead zero) decimal

/-- The zeros that a text starts with. -/
def zeros (s : String) : ℕ :=
  (s.toList.takeWhile fun c => c = '0').length

/-- What follows them is a fraction of zeros, if anything. -/
def Vanishes (s : String) : Prop :=
  (s.toList.dropWhile fun c => c = '0') ∈ [[], ['.', '0'], ['.', '0', '0']]

instance (s : String) : Decidable (Vanishes s) :=
  inferInstanceAs (Decidable (_ ∈ _))

/-- A zero with two digits or more before the point. -/
def PaddedZero (s : String) : Prop :=
  2 ≤ zeros s ∧ Vanishes s

instance (s : String) : Decidable (PaddedZero s) :=
  inferInstanceAs (Decidable (_ ∧ _))

/-! ## The shape of a decimal -/

/-- A point and one or two characters of the class, or nothing. -/
def Fraction (p : Char → Bool) (fs : List Char) : Prop :=
  fs = [] ∨ ∃ ds, fs = '.' :: ds ∧ 1 ≤ ds.length ∧ ds.length ≤ 2 ∧ ∀ c ∈ ds, p c = true

variable {p : Char → Bool} {ds fs cs : List Char} {s : String}

theorem Fraction.cases (h : Fraction p fs) : fs = [] ∨ (∃ a, fs = ['.', a] ∧ p a = true) ∨
    ∃ a b, fs = ['.', a, b] ∧ p a = true ∧ p b = true := by
  obtain rfl | ⟨ds, rfl, hlo, hhi, hds⟩ := h
  · exact .inl rfl
  match ds with
  | [] => simp at hlo
  | [a] => exact .inr (.inl ⟨a, rfl, hds a List.mem_cons_self⟩)
  | [a, b] => exact .inr (.inr ⟨a, b, rfl, by simpa using hds⟩)
  | _ :: _ :: _ :: _ => simp at hhi

theorem run_fraction : (Regex.seq (.opt (.seq (char '.') (.times p 1 (some 2)))) .atEnd).run
    (fun _ => true) cs = true ↔ Fraction p cs := by
  rw [run_seq, run_opt, run_seq, char, run_cls, run_atEnd, Fraction]
  constructor
  · rintro (⟨c, rest, rfl, hc, h⟩ | ⟨rfl, -⟩)
    · obtain ⟨ds, rest, rfl, hlo, hhi, hp, h⟩ := run_times.1 h
      obtain ⟨rfl, -⟩ := run_atEnd.1 h
      obtain rfl : c = '.' := of_decide_eq_true hc
      exact .inr ⟨ds, by rw [List.append_nil], hlo, hhi 2 rfl, hp⟩
    · exact .inl rfl
  · rintro (rfl | ⟨ds, rfl, hlo, hhi, hp⟩)
    · exact .inr ⟨rfl, rfl⟩
    · refine .inl ⟨'.', ds, rfl, rfl, run_times.2 ⟨ds, [], (List.append_nil ds).symm, hlo, ?_, hp,
        rfl⟩⟩
      rintro m ⟨⟩
      exact hhi

theorem test_decimal : decimal.test s = true ↔ ∃ ds fs, s.toList = ds ++ fs ∧ ds ≠ [] ∧
    (∀ c ∈ ds, c.isDigit = true) ∧ Fraction Char.isDigit fs := by
  rw [test, decimal, run_seq, digits, run_times]
  constructor
  · rintro ⟨ds, fs, hs, hlo, -, hp, h⟩
    exact ⟨ds, fs, hs, List.ne_nil_of_length_pos hlo, hp, run_fraction.1 h⟩
  · rintro ⟨ds, fs, hs, hne, hp, h⟩
    exact ⟨ds, fs, hs, List.length_pos_of_ne_nil hne, by simp, hp, run_fraction.2 h⟩

theorem span_fraction (hp : p '.' = false) (hds : ∀ c ∈ ds, p c = true) {q : Char → Bool}
    (hfs : Fraction q fs) :
    (ds ++ fs).takeWhile p = ds ∧ (ds ++ fs).dropWhile p = fs := by
  rw [List.takeWhile_append_of_pos hds, List.dropWhile_append_of_pos hds]
  rcases hfs with rfl | ⟨es, rfl, -⟩
  · simp
  · simp [hp]

/-- The model of the validator reads the text like the pattern. -/
theorem isDecimal_eq_test (s : String) : isDecimal s = decimal.test s := by
  rw [Bool.eq_iff_iff, test_decimal, isDecimal, Bool.and_eq_true]
  constructor
  · rintro ⟨hne, hrest⟩
    refine ⟨_, _, List.takeWhile_append_dropWhile.symm, by simpa using hne,
      fun c hc => List.mem_takeWhile_imp hc, ?_⟩
    split at hrest
    · exact .inl (by assumption)
    · next a h => exact .inr ⟨[a], h, by simp, by simp, by simpa using hrest⟩
    · next a b h => exact .inr ⟨[a, b], h, by simp, by simp, by simpa using hrest⟩
    · cases hrest
  · rintro ⟨ds, fs, hs, hne, hds, hfs⟩
    obtain ⟨htake, hdrop⟩ := span_fraction (by decide) hds hfs
    rw [hs, htake, hdrop]
    refine ⟨by simpa using hne, ?_⟩
    obtain rfl | ⟨a, rfl, ha⟩ | ⟨a, b, rfl, hab⟩ := hfs.cases
    · rfl
    · exact ha
    · exact Bool.and_eq_true_iff.2 hab

/-- The digits of zero. -/
theorem digitsValue_eq_zero (hds : ∀ c ∈ ds, c.isDigit = true) :
    digitsValue ds = 0 ↔ ∀ c ∈ ds, c = '0' := by
  have hfold : ∀ (ds : List Char) (n : ℕ),
      ds.foldl (fun n c => 10 * n + (c.toNat - 48)) n = 0 ↔ n = 0 ∧ ∀ c ∈ ds, c.toNat - 48 = 0 := by
    intro ds
    induction ds with
    | nil => simp
    | cons c ds ih =>
      intro n
      rw [List.foldl_cons, ih, List.forall_mem_cons, ← and_assoc]
      refine and_congr_left fun _ => ?_
      omega
  rw [digitsValue, hfold]
  refine (and_iff_right rfl).trans (forall₂_congr fun c hc => ?_)
  have hc := hds c hc
  rw [Char.isDigit_iff_toNat] at hc
  rw [← Char.toNat_inj]
  have h0 : '0'.toNat = 48 := rfl
  omega

theorem fraction_zeros : Fraction (fun d => d = '0') fs ↔
    fs ∈ [[], ['.', '0'], ['.', '0', '0']] := by
  constructor
  · intro h
    obtain rfl | ⟨a, rfl, ha⟩ | ⟨a, b, rfl, ha, hb⟩ := h.cases
    · simp
    · simpa using ha
    · simp [of_decide_eq_true ha, of_decide_eq_true hb]
  · intro h
    rcases List.mem_cons.1 h with rfl | h
    · exact .inl rfl
    rcases List.mem_pair.1 h with rfl | rfl
    · exact .inr ⟨['0'], rfl, by decide, by decide, by simp⟩
    · exact .inr ⟨['0', '0'], rfl, by decide, by decide, by simp⟩

/-- The texts of zero. -/
theorem isZero_iff : (isDecimal s = true ∧ hundredths s = 0) ↔ 1 ≤ zeros s ∧ Vanishes s := by
  rw [isDecimal_eq_test, test_decimal, Vanishes, ← fraction_zeros, zeros]
  constructor
  · rintro ⟨⟨ds, fs, hs, hne, hds, hfs⟩, hzero⟩
    obtain ⟨htake, hdrop⟩ := span_fraction (by decide) hds hfs
    rw [hundredths, hs, htake, hdrop] at hzero
    have hwhole : ∀ c ∈ ds, c = '0' := (digitsValue_eq_zero hds).1 (by omega)
    obtain ⟨htake', hdrop'⟩ := span_fraction (p := fun c => c = '0') (by decide)
      (fun c hc => decide_eq_true (hwhole c hc)) hfs
    rw [hs, htake', hdrop']
    refine ⟨List.length_pos_of_ne_nil hne, ?_⟩
    refine fraction_zeros.2 ?_
    obtain rfl | ⟨a, rfl, ha⟩ | ⟨a, b, rfl, hab⟩ := hfs.cases
    · simp
    · have hzero : 100 * digitsValue ds + 10 * digitsValue [a] = 0 := hzero
      simpa using (digitsValue_eq_zero (by simpa using ha)).1 (by omega : digitsValue [a] = 0)
    · have hzero : 100 * digitsValue ds + digitsValue [a, b] = 0 := hzero
      simpa using (digitsValue_eq_zero (by simpa using hab)).1 (by omega : digitsValue [a, b] = 0)
  · rintro ⟨hlo, hfs⟩
    have hs := List.takeWhile_append_dropWhile (p := fun c => decide (c = '0')) (l := s.toList)
    have hds : ∀ c ∈ s.toList.takeWhile (fun c => c = '0'), c = '0' :=
      fun c hc => of_decide_eq_true (List.mem_takeWhile_imp (p := fun c => decide (c = '0')) hc)
    generalize s.toList.takeWhile (fun c => c = '0') = ds at *
    generalize s.toList.dropWhile (fun c => c = '0') = fs at *
    have hdigits : ∀ c ∈ ds, c.isDigit = true := fun c hc => hds c hc ▸ rfl
    have hvalue := (digitsValue_eq_zero hdigits).2 hds
    have hfs' : Fraction Char.isDigit fs := by
      rcases hfs with rfl | ⟨es, rfl, hlo, hhi, hes⟩
      · exact .inl rfl
      · exact .inr ⟨es, rfl, hlo, hhi, fun c hc => of_decide_eq_true (hes c hc) ▸ rfl⟩
    refine ⟨⟨ds, fs, hs.symm, List.ne_nil_of_length_pos hlo, hdigits, hfs'⟩, ?_⟩
    obtain ⟨htake, hdrop⟩ := span_fraction (by decide) hdigits hfs'
    rw [hundredths, ← hs, htake, hdrop, hvalue]
    rcases List.mem_cons.1 (fraction_zeros.1 hfs) with rfl | h
    · rfl
    rcases List.mem_pair.1 h with rfl | rfl
    · rfl
    · rfl

/-- The lookahead sees a zero with one digit before the point. -/
theorem run_zero : zero.run (fun _ => true) s.toList = true ↔ zeros s = 1 ∧ Vanishes s := by
  rw [zero, run_seq, char, run_cls, Vanishes, ← fraction_zeros, zeros]
  constructor
  · rintro ⟨c, rest, hs, hc, h⟩
    have hall : ∀ d ∈ [c], decide (d = '0') = true := fun d hd => List.mem_singleton.1 hd ▸ hc
    obtain ⟨htake, hdrop⟩ := span_fraction (p := fun c => c = '0') (by decide) hall
      (run_fraction.1 h)
    rw [hs, ← List.singleton_append, htake, hdrop]
    exact ⟨rfl, run_fraction.1 h⟩
  · rintro ⟨hlen, hfs⟩
    obtain ⟨c, hc⟩ := List.length_eq_one_iff.1 hlen
    have hzero : decide (c = '0') = true :=
      List.mem_takeWhile_imp (p := fun c => decide (c = '0')) (hc ▸ List.mem_singleton_self c)
    refine ⟨c, _, ?_, hzero, run_fraction.2 hfs⟩
    rw [← List.singleton_append, ← hc, List.takeWhile_append_dropWhile]

/-- The texts that the pattern accepts. -/
theorem test_priceUsd : priceUsd.test s = true ↔
    isDecimal s = true ∧ ¬ (zeros s = 1 ∧ Vanishes s) := by
  rw [test, priceUsd, run_seq, run_notAhead, run_zero, isDecimal_eq_test, test]
  exact and_comm

/-- The model of the validator is the pattern. -/
theorem isPrice_eq_test (s : String) : isPrice s = priceUsd.test s := by
  have hone : (zeros s = 1 ∧ Vanishes s) ↔ s = "0" ∨ s = "0.0" ∨ s = "0.00" := by
    constructor
    · rintro ⟨hlen, hfs⟩
      obtain ⟨c, rest, hs, hc, h⟩ := run_cls.1 (run_zero.2 ⟨hlen, hfs⟩)
      obtain rfl : c = '0' := of_decide_eq_true hc
      rcases List.mem_cons.1 (fraction_zeros.1 (run_fraction.1 h)) with rfl | h
      · exact .inl (String.toList_inj.1 hs)
      rcases List.mem_pair.1 h with rfl | rfl
      · exact .inr (.inl (String.toList_inj.1 hs))
      · exact .inr (.inr (String.toList_inj.1 hs))
    · rintro (rfl | rfl | rfl) <;> decide
  rw [Bool.eq_iff_iff, test_priceUsd, hone, isPrice]
  simp only [Bool.and_eq_true, decide_eq_true_eq, ne_eq]
  tauto

/-! ## What `settle` rejects -/

section

variable {A : Type} [DecidableEq A] {sac : Sac A} {w u : A} {orderRef : String} {total : I128}
  {recipients : List (Recipient A)}

theorem payRecipients_error {h : Halt} : ∀ {rs : List (Recipient A × I128)} {s : ContractState A},
    payRecipients sac u w orderRef rs s = .error h → h = .trap
  | (recipient, amount) :: rest, s, hp => by
    rw [payRecipients] at hp
    split at hp
    · unfold ContractState.transfer at hp
      split at hp
      · exact payRecipients_error hp
      · exact (Except.error.inj hp).symm
    · exact payRecipients_error hp

theorem settleChecked_error {h : Halt} {s : ContractState A}
    (hs : settleChecked sac w u orderRef total recipients s = .error h) :
    h = .trap ∨ h = .err .arithmeticOverflow := by
  unfold settleChecked at hs
  split at hs
  · next e he =>
    obtain rfl := Except.error.inj hs
    unfold feeAndPool at he
    split at he
    · exact .inr (congrArg _ (Except.error.inj he).symm)
    · split at he
      · exact .inr (congrArg _ (Except.error.inj he).symm)
      · cases he
  · split at hs
    · exact .inl (Except.error.inj hs).symm
    · next amounts _ =>
      cases hp : payRecipients sac u w orderRef (recipients.zip amounts) s with
      | ok s' =>
        rw [hp] at hs
        cases hs
      | error h' =>
        rw [hp] at hs
        obtain rfl := Except.error.inj hs
        exact .inl (payRecipients_error hp)

/-- `settle` rejects a total as not positive only where it is not. -/
theorem settle_ne_invalidTotalAmount (ht : 0 < total.val) (auth : A → Bool)
    (s : ContractState A) :
    settle sac auth orderRef total recipients s ≠ .error (.err .invalidTotalAmount) := by
  intro h
  unfold settle at h
  split at h
  · cases h
  · cases h
  · split at h
    · cases h
    split at h
    · cases h
    split at h
    · omega
    split at h
    · next e he =>
      have hd := validateRecipients_defect he
      obtain rfl : e = .invalidTotalAmount := by simpa using h
      exact hd
    · rcases settleChecked_error h with h | h
      · cases h
      · cases h

end

/-! ## Accepted prices -/

/-- No `settle` of an order of a product that has had only this price is rejected as not
positive, in no run of the services. -/
def NeverRejected (text : String) : Prop :=
  ∀ (cfg : StellarConfig) (productId : String) (w : World)
    (ts : List (Turn Choice MarketStep ServiceCall)), Unlisted productId w →
    Config.During (market cfg) (ServiceCall.method cfg) (Lawful productId (· = text)) ts ⟨[], w⟩ →
    ∀ i tx o, let s := Config.turns (market cfg) (ServiceCall.method cfg) ts ⟨[], w⟩
      s.Waits i (.simulateSettle tx) ∨ s.Waits i (.sendTransaction tx) →
      s.world.db.orders.lookup tx.orderRef = some o → o.productId = productId →
      ∀ (sac : Sac String) (auth : String → Bool) (state : ContractState String),
        settle sac auth tx.orderRef tx.totalAmount tx.recipients state ≠
          .error (.err .invalidTotalAmount)

theorem neverRejected_of_pos {text : String} (h : isPrice text = true → 0 < hundredths text) :
    NeverRejected text := by
  intro cfg productId w ts hw hrun i tx o s hwaits ho hproduct sac auth state
  have hV : Pricing.Admits (· = text) (Pricing.OneOf (· = text)) := fun _ hp haccepted a ha =>
    ⟨_, hp, carries_of_cents haccepted ha⟩
  obtain ⟨φ, hs, hI⟩ := Pricing.sees_turns hV ts (Pricing.priced_of_unlisted hw) hrun
  have harrives := hI.arrives hs
  obtain ⟨o', ho', htotal⟩ := harrives.transaction i tx hwaits
  obtain rfl := Option.some.inj (ho.symm.trans ho')
  obtain ⟨_, rfl, hcarries⟩ := harrives.order _ o ho hproduct
  refine settle_ne_invalidTotalAmount ?_ auth state
  rw [htotal, hcarries.base]
  have := h hcarries.accepted
  positivity

end PriceTexts

open PriceTexts

/-- The pattern accepts exactly the decimals of at least 0.01, and orders at an accepted price
settle, except for a zero with two digits or more before the point. -/
theorem price_accepted_iff (s : String) :
    ((priceUsd.test s = true ↔ isDecimal s = true ∧ 1 ≤ hundredths s) ∧
      (priceUsd.test s = true → NeverRejected s)) ↔ ¬ PaddedZero s := by
  have hzero := isZero_iff (s := s)
  have haccepts := test_priceUsd (s := s)
  constructor
  · rintro ⟨hiff, -⟩ ⟨hlo, hv⟩
    obtain ⟨hdecimal, hvalue⟩ := hzero.2 ⟨by omega, hv⟩
    have := (hiff.1 (haccepts.2 ⟨hdecimal, fun h => by omega⟩)).2
    omega
  · intro hpadded
    have hpos : priceUsd.test s = true → 1 ≤ hundredths s := by
      intro h
      obtain ⟨hdecimal, hone⟩ := haccepts.1 h
      by_contra hlt
      obtain ⟨hlo, hv⟩ := hzero.1 ⟨hdecimal, by omega⟩
      exact hpadded ⟨by_contra fun h2 => hone ⟨by omega, hv⟩, hv⟩
    refine ⟨⟨fun h => ⟨(haccepts.1 h).1, hpos h⟩, fun ⟨hdecimal, hvalue⟩ => ?_⟩, fun h => ?_⟩
    · refine haccepts.2 ⟨hdecimal, fun ⟨hone, hv⟩ => ?_⟩
      have := (hzero.2 ⟨by omega, hv⟩).2
      omega
    · exact neverRejected_of_pos fun _ => hpos h

/-- The body of a product for "00" dollars. -/
def demoFree : CreateProductDto :=
  ⟨"Presets", none, "https://drive", "00", none⟩

/-- The product is created, bought and paid, and its settlement starts. -/
def demoFreeSale : List (Turn Choice MarketStep ServiceCall) :=
  .act (.env (.catalog (.create demoFree "alice")
      (.productCreate ⟨"Presets", none, "https://drive", 0, "alice"⟩ [⟨"A", "Creator", 10000⟩])
      { uuid := "product" })) ::
    .call (.checkout "product" "buyer") :: List.replicate 2 (.act (.run 0 { uuid := "order" })) ++
      .call (.payment (.webhook "order" "ref")) :: List.replicate 4 (.act (.run 1 {})) ++
        .call (.paymentReceived ⟨"order", usd 0, "alice", some "A", "ref"⟩) ::
          List.replicate 8 (.act (.run 2 {}))

theorem isValid_demoFree : demoFree.isValid = true := by
  decide

/-- "00" is accepted, and `settle` rejects the order that is paid at this price. -/
theorem price_accepted_zero : priceUsd.test "00" = true ∧ hundredths "00" = 0 ∧
    ¬ NeverRejected "00" := by
  refine ⟨by decide, by decide, fun h => ?_⟩
  have hmakes : (ProductCall.create demoFree "alice").method.Makes
      (CatalogRequest.productCreate ⟨"Presets", none, "https://drive", 0, "alice"⟩
        [⟨"A", "Creator", 10000⟩]) := by
    simp only [ProductCall.method, isValid_demoFree]
    exact Or.inr ⟨.ok (some "A"), Or.inr ⟨.ok (⟨0, true⟩ : WalletBalance), Or.inl rfl⟩⟩
  have hlawful : Config.During (market demoConfig) (ServiceCall.method demoConfig)
      (Lawful "product" (· = "00")) demoFreeSale ⟨[], demoMarket⟩ :=
    ⟨⟨hmakes, fun _ _ ht => (Option.some.inj ht).symm⟩, trivial, trivial, trivial, trivial,
      trivial, trivial, trivial, trivial, List.mem_cons_self, trivial, trivial, trivial, trivial,
      trivial, trivial, trivial, trivial, trivial⟩
  have hnever := h demoConfig "product" demoMarket demoFreeSale unlisted_demoMarket hlawful 2
  obtain ⟨tx, hwaits, ho, hsettle⟩ : ∃ tx, (Config.turns (market demoConfig)
      (ServiceCall.method demoConfig) demoFreeSale ⟨[], demoMarket⟩).Waits 2 (.simulateSettle tx) ∧
      (∃ o, (Config.turns (market demoConfig) (ServiceCall.method demoConfig) demoFreeSale
        ⟨[], demoMarket⟩).world.db.orders.lookup tx.orderRef = some o ∧ o.productId = "product") ∧
      settle (demoConfig.sac fun _ => true) (fun _ => true) tx.orderRef tx.totalAmount tx.recipients
        demoMarket.chain.contract = .error (.err .invalidTotalAmount) :=
    ⟨_, ⟨_, rfl, rfl⟩, ⟨_, rfl, rfl⟩, rfl⟩
  obtain ⟨o, ho, hproduct⟩ := ho
  exact hnever tx o (.inl hwaits) ho hproduct _ _ _ hsettle

end Kreav
