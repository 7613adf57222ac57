import Kreav.PriceTexts

/-!
# The payout preview

The product form of `frontend/src/app/(app)/dashboard/products/page.tsx` : the checks of its
revenue split (`validateSplit`) and the preview of the payouts (`computeSplit`), which runs the
split of the contract in cents. Numbers are exact : shares are counted in hundredths of a
percent, which are the basis points.

`preview_agrees_iff` : the preview of the fee is the fee of the contract in whole cents. Those
of the recipients are their amounts exactly when the share of each in the price less 5% is a
whole number of cents.
-/

open Apportion

namespace Kreav

namespace ProductForm

/-! ## The form -/

/-- What `trim` cuts off : white space and line terminators. -/
def isWhitespace (c : Char) : Bool :=
  c.toNat ∈ [0x9, 0xa, 0xb, 0xc, 0xd, 0x20, 0xa0, 0x1680, 0x2028, 0x2029, 0x202f, 0x205f, 0x3000,
    0xfeff] || (0x2000 ≤ c.toNat && c.toNat ≤ 0x200a)

/-- `String.prototype.trim`. -/
def trim (s : String) : String :=
  String.ofList ((s.toList.dropWhile isWhitespace).reverse.dropWhile isWhitespace).reverse

/-- `parseInt(text, 10)`, none for `NaN`. -/
def parseInt (text : List Char) : Option ℤ :=
  let text := text.dropWhile isWhitespace
  let unsigned := match text with
    | '+' :: rest => rest
    | '-' :: rest => rest
    | rest => rest
  let digits := unsigned.takeWhile Char.isDigit
  if digits = [] then none
  else some (if text.head? = some '-' then -digitsValue digits else digitsValue digits)

/-- A price in cents, none for `NaN`. -/
def toCents (usd : String) : Option ℤ :=
  let parts := usd.toList.splitOn '.'
  let whole := (parseInt (parts.headD [])).getD 0
  let frac := match parts[1]? with
    | some part => parseInt ((part ++ ['0', '0']).take 2)
    | none => some 0
  frac.map fun frac => whole * 100 + frac

/-- The preview of a payout. -/
structure Preview where
  feeCents : ℤ
  poolCents : ℤ
  recipientCents : List ℤ
  deriving DecidableEq, Repr

/-- The recipients left, with `distributed` handed out before them. -/
def recipientCentsFrom (poolCents : ℤ) : ℤ → List ℤ → List ℤ
  | _, [] => []
  | distributed, [_] => [poolCents - distributed]
  | distributed, bps :: next :: rest =>
    let cents := poolCents * bps / 10000
    cents :: recipientCentsFrom poolCents (distributed + cents) (next :: rest)

/-- The preview, none where its numbers are `NaN`. -/
def computeSplit (priceUsd : String) (shares : List ℤ) : Option Preview :=
  (toCents priceUsd).map fun totalCents =>
    let feeCents := totalCents * 500 / 10000
    let poolCents := totalCents - feeCents
    ⟨feeCents, poolCents, recipientCentsFrom poolCents 0 shares⟩

end ProductForm

/-- The state of the form, with the wallet of the session. -/
structure ProductForm where
  walletAddress : Option String
  priceUsd : String
  splitEnabled : Bool
  collaborators : List CreateCollaboratorDto

namespace ProductForm

/-- A collaborator as the form sends it. -/
def trimmed (c : CreateCollaboratorDto) : CreateCollaboratorDto :=
  ⟨trim c.walletAddress, trim c.role, trim c.revenuePercentage⟩

/-- The loop of `validateSplit`, with the wallets that it has seen. -/
def validateRows : List String → List CreateCollaboratorDto → Except String (List String)
  | seen, [] => .ok seen
  | seen, c :: rest =>
    if !isPublicKey c.walletAddress then
      .error "Each collaborator needs a valid Stellar address (G… 56 chars)."
    else if c.walletAddress ∈ seen then .error "Each wallet can appear only once in the split."
    else if c.role = "" then .error "Each collaborator needs a role."
    else if !isDecimal c.revenuePercentage || hundredths c.revenuePercentage = 0 then
      .error "Each share must be a number greater than 0 (e.g. 50 or 33.33)."
    else validateRows (c.walletAddress :: seen) rest

/-- The shares of the collaborators, in hundredths of a percent. -/
def percentages (form : ProductForm) : List ℤ :=
  (form.collaborators.map trimmed).map fun c => (hundredths c.revenuePercentage : ℤ)

/-- The message of a split that is not valid. The sum in it is the exact one. The page adds
doubles, and where these are not exact it prints the digits of their sum (`0.1` and `0.2` give
`0.30000000000000004`). -/
def validateSplit (form : ProductForm) : Option String :=
  let walletAddress := form.walletAddress.getD ""
  if walletAddress = "" then some "Connect a wallet before splitting revenue."
  else match validateRows [] (form.collaborators.map trimmed) with
    | .error message => some message
    | .ok seen =>
      if walletAddress ∉ seen then
        some "Include your own wallet in the split — you can't give away 100%."
      -- a sum that is off by more than 0.001, in thousandths
      else if 1 < |10 * form.percentages.sum - 100000| then
        some ("Revenue shares must sum to 100% (currently " ++
          Products.decimalText form.percentages.sum.toNat ++ "%).")
      else none

/-- The shares of the preview. Without a split the creator gets everything. -/
def shares (form : ProductForm) : List ℤ :=
  if form.splitEnabled then form.percentages else [10000]

/-- The preview that the form shows, for a price and a split that it accepts. -/
def breakdown (form : ProductForm) : Option Preview :=
  if isDecimal form.priceUsd ∧ (form.splitEnabled = true → form.validateSplit = none) then
    computeSplit form.priceUsd form.shares
  else none

/-! ## Numbers of an accepted form -/

open PriceTexts

variable {ds : List Char} {form : ProductForm} {preview : Preview}

theorem parseInt_digits (hne : ds ≠ []) (hds : ∀ c ∈ ds, c.isDigit = true) :
    parseInt ds = some (digitsValue ds : ℤ) := by
  obtain ⟨c, cs, rfl⟩ := List.exists_cons_of_ne_nil hne
  have hc := hds c List.mem_cons_self
  have hspace : isWhitespace c = false := by
    rw [Char.isDigit_iff_toNat] at hc
    have h0 : '0'.toNat = 48 := rfl
    have h9 : '9'.toNat = 57 := rfl
    simp [isWhitespace]
    omega
  have hplus : c ≠ '+' := by rintro rfl; exact absurd hc (by decide)
  have hminus : c ≠ '-' := by rintro rfl; exact absurd hc (by decide)
  have htake : (c :: cs).takeWhile Char.isDigit = c :: cs := List.takeWhile_eq_self_iff.2 hds
  unfold parseInt
  rw [List.dropWhile_cons_of_neg (by simp [hspace])]
  simp only
  split
  · next h => exact absurd (List.cons.inj h).1 hplus
  · next h => exact absurd (List.cons.inj h).1 hminus
  · simp [htake, hminus]

/-- The cents of a price are its hundredths. -/
theorem toCents_eq {usd : String} (h : isDecimal usd = true) :
    toCents usd = some (hundredths usd : ℤ) := by
  rw [isDecimal_eq_test, test_decimal] at h
  obtain ⟨ds, fs, hs, hne, hds, hfs⟩ := h
  obtain ⟨htake, hdrop⟩ := span_fraction (by decide) hds hfs
  have hpoint : ∀ {cs : List Char}, (∀ c ∈ cs, c.isDigit = true) → '.' ∉ cs :=
    fun h hmem => absurd (h _ hmem) (by decide)
  have hwhole := parseInt_digits hne hds
  unfold toCents hundredths
  rw [hs, htake, hdrop]
  obtain rfl | ⟨a, rfl, ha⟩ | ⟨a, b, rfl, hab⟩ := hfs.cases
  · rw [List.append_nil, List.splitOn_eq_singleton (hpoint hds)]
    simp [hwhole, mul_comm]
  · have hfrac : parseInt [a, '0'] = some (digitsValue [a, '0'] : ℤ) :=
      parseInt_digits (by simp) (by simpa using ha)
    rw [List.splitOn_append_cons_self, List.splitOn_eq_singleton (hpoint hds),
      List.splitOn_eq_singleton (hpoint (by simpa using ha))]
    simp [hwhole, hfrac, digitsValue]
    ring
  · have hfrac : parseInt [a, b] = some (digitsValue [a, b] : ℤ) :=
      parseInt_digits (by simp) (by simpa using hab)
    rw [List.splitOn_append_cons_self, List.splitOn_eq_singleton (hpoint hds),
      List.splitOn_eq_singleton (hpoint (by simpa using hab))]
    simp [hwhole, hfrac]
    ring

/-! ## The preview and the contract -/

theorem nonneg_shares (form : ProductForm) : ∀ s ∈ form.shares, 0 ≤ s := by
  intro s hs
  unfold shares at hs
  split at hs
  · obtain ⟨c, -, rfl⟩ := List.mem_map.1 hs
    exact Int.natCast_nonneg _
  · obtain rfl := List.mem_singleton.1 hs
    decide

/-- The shares of an accepted split add up to 100%. -/
theorem sum_of_validateSplit (h : form.validateSplit = none) : form.percentages.sum = 10000 := by
  unfold validateSplit at h
  simp only at h
  split at h
  · cases h
  split at h
  · cases h
  split at h
  · cases h
  split at h
  · cases h
  next hsum =>
  rw [not_lt, abs_le] at hsum
  omega

theorem sum_shares (h : form.splitEnabled = true → form.validateSplit = none) :
    form.shares.sum = 10000 := by
  unfold shares
  split
  · next hsplit => exact sum_of_validateSplit (h hsplit)
  · rfl

/-- The loop of the preview is that of the contract. -/
theorem recipientCentsFrom_eq {pool : ℤ} (hpool : 0 ≤ pool) : ∀ {d : ℤ} {ss : List ℤ},
    (∀ s ∈ ss, 0 ≤ s) → recipientCentsFrom pool d ss = apportionFrom pool 10000 d ss
  | _, [], _ => rfl
  | _, [_], _ => rfl
  | d, s :: s' :: ss, hs => by
    have hnn : 0 ≤ pool * s := mul_nonneg hpool (hs s List.mem_cons_self)
    rw [recipientCentsFrom, apportionFrom, Int.tdiv_eq_ediv_of_nonneg hnn,
      recipientCentsFrom_eq hpool fun t ht => hs t (List.mem_cons_of_mem s ht)]

variable {A : Type} {recipients : List (Recipient A)} {total : I128}

/-- The preview is the split of the contract, in whole cents. -/
structure Agrees [DecidableEq A] (preview : Preview) (split : Split total recipients) : Prop where
  fee : preview.feeCents = split.platformFee.val / 100000
  recipients : preview.recipientCents = split.amounts.map fun a => a.val / 100000

/-- What the form shows for the price `cents`. -/
theorem breakdown_eq (h : form.breakdown = some preview) :
    form.shares.sum = 10000 ∧
      preview.feeCents = hundredths form.priceUsd * 500 / 10000 ∧
      preview.poolCents = hundredths form.priceUsd - preview.feeCents ∧
      preview.recipientCents = recipientCentsFrom preview.poolCents 0 form.shares := by
  obtain ⟨⟨hprice, hsplit⟩, h⟩ := Option.ite_none_right_eq_some.1 h
  rw [computeSplit, toCents_eq hprice] at h
  obtain rfl := Option.some.inj h
  exact ⟨sum_shares hsplit, rfl, rfl, rfl⟩

variable (form) in
/-- The total of an order at the price, in base units. -/
def totalBase : ℤ :=
  hundredths form.priceUsd * 100000

theorem fee_agrees (h : form.breakdown = some preview) (htotal : total.val = form.totalBase)
    (split : Split total recipients) : preview.feeCents = split.platformFee.val / 100000 := by
  obtain ⟨-, hfee, -⟩ := breakdown_eq h
  have hnn : 0 ≤ total.val := by rw [htotal, totalBase]; positivity
  obtain ⟨hfee', -⟩ := feeAndPool_bounds split.fee_eq hnn
  rw [hfee, hfee', htotal, totalBase]
  omega

/-- The preview agrees with the contract exactly when the share of each recipient in the price
less 5%, which is `19 · cents · share / 200000`, is a whole number of cents. -/
theorem preview_agrees_iff (form : ProductForm) {preview : Preview}
    (h : form.breakdown = some preview) {A : Type} [DecidableEq A]
    {recipients : List (Recipient A)}
    (hshares : recipients.map (·.shareBps.val) = form.shares) {total : I128}
    (htotal : total.val = form.totalBase) (split : Split total recipients) :
    Agrees preview split ↔ ∀ s ∈ form.shares, 200000 ∣ (hundredths form.priceUsd : ℤ) * s := by
  obtain ⟨hsum, hfee, hpool, hrecipients⟩ := breakdown_eq h
  have hnn : 0 ≤ total.val := by rw [htotal, totalBase]; positivity
  obtain ⟨hfee', hpool0, -⟩ := feeAndPool_bounds split.fee_eq hnn
  have hpool' := (feeAndPool_eq_ok split.fee_eq).2
  rw [htotal, totalBase] at hfee' hpool'
  have hpoolCents : 0 ≤ preview.poolCents := by omega
  have hamounts : (split.amounts.map fun a => a.val / 100000) =
      (apportion split.creatorPool.val 10000 form.shares).map (· / 100000) := by
    rw [← hshares, ← calculateCreatorAmounts_val split.amounts_eq, List.map_map]
    rfl
  rw [recipientCentsFrom_eq hpoolCents (nonneg_shares form)] at hrecipients
  have hiff := apportion_map_ediv_iff (by decide) (by decide : (10000 : ℤ) ≤ 100000) hpool0
    (by omega : split.creatorPool.val ≤ 100000 * preview.poolCents) (by omega)
    (nonneg_shares form) hsum
  have hdvd (s : ℤ) : 100000 * 10000 ∣ split.creatorPool.val * s ↔
      200000 ∣ (hundredths form.priceUsd : ℤ) * s := by
    have hproduct : split.creatorPool.val * s = 95000 * (hundredths form.priceUsd * s) := by
      have hfine : split.creatorPool.val = 95000 * hundredths form.priceUsd := by omega
      rw [hfine, mul_assoc]
    rw [hproduct]
    generalize (hundredths form.priceUsd : ℤ) * s = x
    omega
  rw [forall₂_congr fun s _ => hdvd s] at hiff
  rw [← hiff]
  constructor
  · intro hagrees
    rw [← hamounts, ← hagrees.recipients, hrecipients]
    rfl
  · intro heq
    exact ⟨fee_agrees h htotal split, by rw [hrecipients, hamounts, heq]; rfl⟩

end ProductForm

open ProductForm

/-- The form of a product without collaborators. -/
def demoForm (priceUsd : String) : ProductForm :=
  ⟨some demoAddress, priceUsd, false, []⟩

/-- The contract splits 20 dollars for one recipient. -/
def demoTwenty : Split (i128 200000000) [(⟨"a", i128 10000⟩ : Recipient String)] :=
  ⟨i128 10000000, i128 190000000, [i128 190000000], rfl, rfl⟩

/-- The contract splits 10 cents for one recipient. -/
def demoTen : Split (i128 1000000) [(⟨"a", i128 10000⟩ : Recipient String)] :=
  ⟨i128 50000, i128 950000, [i128 950000], rfl, rfl⟩

/-- Of 20 dollars the creator is shown 19, and gets 19. -/
theorem preview_agrees_twenty : ∃ preview, (demoForm "20.00").breakdown = some preview ∧
    preview.recipientCents = [1900] ∧ Agrees preview demoTwenty := by
  refine ⟨_, rfl, by decide, (preview_agrees_iff (demoForm "20.00") rfl rfl (by decide)
    demoTwenty).2 ?_⟩
  decide

/-- Of 10 cents the creator is shown 10, and gets 9.5. -/
theorem preview_disagrees : ∃ preview, (demoForm "0.10").breakdown = some preview ∧
    preview.recipientCents = [10] ∧ ¬ Agrees preview demoTen :=
  ⟨_, rfl, by decide, fun h => absurd h.recipients (by decide)⟩

end Kreav
