import Kreav.Lib.Decimals
import Kreav.Lib.JsValues

/-!
# Decimals in the responses

`serialize` is `DecimalToStringInterceptor.serialize` on the heap : it allocates the arrays and
objects it returns and writes their elements and properties one by one. `contentSerialize` is
what it does to the content of a value, and `serialize_denotes` connects the two : on a value of
plain objects the cells that were there stay, and what is returned has the content with its
Decimals written out.

An object is rebuilt by `out[key] = …` over `Object.entries`. The name `__proto__` sets the
prototype of `out` and no property, and the keys that are symbols are not among the entries.
These keys are lost, and without them the copy has all of them (`serialize_conforms_iff`).
-/

open Decimals Js

namespace Kreav

namespace DecimalToString

/-- A Decimal of decimal.js. -/
inductive DecimalNumber
  | finite (x : Decimal)
  | nan
  | infinity (negative : Bool)
  deriving DecidableEq

/-- `value.toFixed(2)`. -/
def DecimalNumber.toFixed : DecimalNumber → String
  | finite x => x.toFixed 2
  | nan => "NaN"
  | infinity negative => if negative then "-Infinity" else "Infinity"

/-- The objects of classes in a response. -/
inductive Leaf
  /-- The time value, and none of an invalid date. -/
  | date (time : Option ℤ)
  | decimal (x : DecimalNumber)
  deriving DecidableEq

/-- `serialize(item)`, the next element of the array `out`. -/
def mapItem (serialize : Heap Leaf → Val → Option (Heap Leaf × Val)) (out : ℕ) (h : Heap Leaf)
    (item : Val) : Option (Heap Leaf) := do
  let (h, w) ← serialize h item
  return h.modify out (Cell.push w)

/-- `out[key] = serialize(val)`. -/
def setEntry (serialize : Heap Leaf → Val → Option (Heap Leaf × Val)) (out : ℕ) (h : Heap Leaf)
    (entry : String × Val) : Option (Heap Leaf) := do
  let (h, w) ← serialize h entry.2
  return h.modify out (Cell.assign entry.1 w)

/-- `DecimalToStringInterceptor.serialize`, with fuel for the depth of the value : the heap
after it and the value it returns. An object with another prototype is not modelled, since it
can be an instance of a class. -/
def serialize : ℕ → Heap Leaf → Val → Option (Heap Leaf × Val)
  | _, h, .primitive x => some (h, .primitive x)
  | 0, _, .ref _ => none
  | n + 1, h, .ref r =>
    match h[r]? with
    | none => none
    | some (.leaf (.decimal x)) => some (h, .primitive (.string x.toFixed))
    | some (.array items) => do
      let out := h.length
      let h ← items.foldlM (mapItem (serialize n) out) (h ++ [.array []])
      return (h, .ref out)
    | some (.leaf (.date _)) => some (h, .ref r)
    | some (.object proto props) =>
      -- Build a new object rather than mutate
      if proto = .objectPrototype ∨ proto = .null then do
        let out := h.length
        let h ← props.names.foldlM (setEntry (serialize n) out)
          (h ++ [.object .objectPrototype .empty])
        return (h, .ref out)
      else none

/-! ## What is returned -/

/-- The rebuilt object has the key. -/
def isKept : Key → Bool
  | .name s => s ≠ "__proto__"
  | .symbol _ => false

mutual
/-- The content of the value that is returned. -/
def contentSerialize : Content Leaf → Content Leaf
  | .primitive x => .primitive x
  | .leaf (.decimal x) => .primitive (.string x.toFixed)
  | .leaf (.date time) => .leaf (.date time)
  | .array items => .array (itemsSerialize items)
  | .object props => .object (propsSerialize props)

/-- The items of an array. -/
def itemsSerialize : List (Content Leaf) → List (Content Leaf)
  | [] => []
  | t :: ts => contentSerialize t :: itemsSerialize ts

/-- The properties of an object that are kept. -/
def propsSerialize : List (Key × Content Leaf) → List (Key × Content Leaf)
  | [] => []
  | (k, t) :: ps =>
    if isKept k then (k, contentSerialize t) :: propsSerialize ps else propsSerialize ps
end

theorem itemsSerialize_eq (ts : List (Content Leaf)) :
    itemsSerialize ts = ts.map contentSerialize := by
  induction ts with
  | nil => rfl
  | cons t ts ih => rw [itemsSerialize, ih, List.map_cons]

theorem propsSerialize_eq (ps : List (Key × Content Leaf)) :
    propsSerialize ps =
      (ps.filter fun a => isKept a.1).map fun a => (a.1, contentSerialize a.2) := by
  induction ps with
  | nil => rfl
  | cons a ps ih =>
    obtain ⟨k, t⟩ := a
    rw [propsSerialize, ih, List.filter_cons]
    split <;> rfl

/-- No Decimal anywhere. -/
def DecimalFree (t : Content Leaf) : Prop :=
  ∀ x, .leaf (.decimal x) ∉ t.nodes

/-- No object has a key that is lost. -/
def KeysKept (t : Content Leaf) : Prop :=
  ∀ props, .object props ∈ t.nodes → ∀ a ∈ props, isKept a.1 = true

/-- The text has two decimals, and with at most two of its own the Decimal is the number of the
text. -/
def Writes (x : DecimalNumber) (s : String) : Prop :=
  ∀ d, x = .finite d → d.scale ≤ 2 → ∃ e, parse s = some e ∧ e.scale = 2 ∧
    e.coefficient * 10 ^ d.scale = d.coefficient * 10 ^ e.scale

/-- The second content is the first with texts for its Decimals : the same lengths, keys and other
leaves. -/
inductive Converted : Content Leaf → Content Leaf → Prop
  | primitive (x : Primitive) : Converted (.primitive x) (.primitive x)
  | date (time : Option ℤ) : Converted (.leaf (.date time)) (.leaf (.date time))
  | decimal {x : DecimalNumber} {s : String} (hs : Writes x s) :
    Converted (.leaf (.decimal x)) (.primitive (.string s))
  | array {ts us : List (Content Leaf)} (h : List.Forall₂ Converted ts us) :
    Converted (.array ts) (.array us)
  | object {ps qs : List (Key × Content Leaf)} (hkeys : ps.map Prod.fst = qs.map Prod.fst)
    (hvals : List.Forall₂ Converted (ps.map Prod.snd) (qs.map Prod.snd)) :
    Converted (.object ps) (.object qs)

theorem writes_toFixed (x : DecimalNumber) : Writes x x.toFixed := by
  rintro d rfl hd
  refine ⟨⟨d.units 2, 2⟩, parse_toFixed 2 d, rfl, ?_⟩
  rw [Decimal.units_of_le hd, mul_assoc, ← pow_add, Nat.sub_add_cancel hd]

theorem decimalFree_contentSerialize (t : Content Leaf) : DecimalFree (contentSerialize t) := by
  intro x
  induction t using Content.induct with
  | primitive y => simp [contentSerialize, Content.nodes]
  | leaf y =>
    cases y with
    | date time => simp [contentSerialize, Content.nodes]
    | decimal y => simp [contentSerialize, Content.nodes]
  | array ts ih =>
    rw [contentSerialize, Content.mem_nodes_array, itemsSerialize_eq]
    simpa using ih
  | object ps ih =>
    rw [contentSerialize, Content.mem_nodes_object, propsSerialize_eq]
    rintro (h | ⟨a, ha, hmem⟩)
    · cases h
    · obtain ⟨b, hb, rfl⟩ := List.mem_map.1 ha
      exact ih b.2 (List.mem_map_of_mem (List.mem_of_mem_filter hb)) hmem

/-- A second pass finds nothing to do. -/
theorem contentSerialize_idem (t : Content Leaf) :
    contentSerialize (contentSerialize t) = contentSerialize t := by
  induction t using Content.induct with
  | primitive y => rfl
  | leaf y => cases y <;> rfl
  | array ts ih =>
    rw [contentSerialize, contentSerialize, itemsSerialize_eq, itemsSerialize_eq, List.map_map]
    congr 1
    exact List.map_congr_left ih
  | object ps ih =>
    rw [contentSerialize, contentSerialize, propsSerialize_eq, propsSerialize_eq]
    congr 1
    rw [List.filter_map, List.map_map, List.filter_filter]
    simp only [Function.comp_def, Bool.and_self]
    refine List.map_congr_left fun a ha => ?_
    rw [ih a.2 (List.mem_map_of_mem (List.mem_of_mem_filter ha))]

theorem keysKept_array {ts : List (Content Leaf)} :
    KeysKept (.array ts) ↔ ∀ t ∈ ts, KeysKept t := by
  simp only [KeysKept, Content.mem_nodes_array, reduceCtorEq, false_or]
  constructor
  · exact fun h t ht props hmem => h props ⟨t, ht, hmem⟩
  · rintro h props ⟨t, ht, hmem⟩
    exact h t ht props hmem

theorem keysKept_object {ps : List (Key × Content Leaf)} :
    KeysKept (.object ps) ↔
      (∀ a ∈ ps, isKept a.1 = true) ∧ ∀ t ∈ ps.map Prod.snd, KeysKept t := by
  simp only [KeysKept, Content.mem_nodes_object, Content.object.injEq]
  constructor
  · intro h
    refine ⟨h ps (.inl rfl), fun t ht props hmem => ?_⟩
    obtain ⟨a, ha, rfl⟩ := List.mem_map.1 ht
    exact h props (.inr ⟨a, ha, hmem⟩)
  · rintro ⟨hkeys, h⟩ props (rfl | ⟨a, ha, hmem⟩)
    · exact hkeys
    · exact h a.2 (List.mem_map_of_mem ha) props hmem

theorem propsSerialize_cons (a : Key × Content Leaf) (ps : List (Key × Content Leaf)) :
    propsSerialize (a :: ps) = propsSerialize [a] ++ propsSerialize ps := by
  rw [← List.singleton_append, propsSerialize_eq, List.filter_append, List.map_append,
    ← propsSerialize_eq, ← propsSerialize_eq]

theorem map_fst_propsSerialize (ps : List (Key × Content Leaf)) :
    (propsSerialize ps).map Prod.fst = (ps.map Prod.fst).filter isKept := by
  rw [propsSerialize_eq, List.filter_map, List.map_map]
  rfl

theorem map_snd_propsSerialize {ps : List (Key × Content Leaf)} (h : ∀ a ∈ ps, isKept a.1 = true) :
    (propsSerialize ps).map Prod.snd = (ps.map Prod.snd).map contentSerialize := by
  rw [propsSerialize_eq, List.filter_eq_self.2 h, List.map_map, List.map_map]
  rfl

/-- The content is converted if and only if no key is lost. -/
theorem converted_contentSerialize {t : Content Leaf} :
    Converted t (contentSerialize t) ↔ KeysKept t := by
  have hlist {ts : List (Content Leaf)}
      (ih : ∀ t ∈ ts, (Converted t (contentSerialize t) ↔ KeysKept t)) :
      List.Forall₂ Converted ts (ts.map contentSerialize) ↔ ∀ t ∈ ts, KeysKept t := by
    rw [List.forall₂_map_right_iff, List.forall₂_same]
    exact forall₂_congr ih
  induction t using Content.induct with
  | primitive y =>
    refine iff_of_true (.primitive y) fun props h => ?_
    simp [Content.nodes] at h
  | leaf y =>
    refine iff_of_true ?_ fun props h => ?_
    · cases y with
      | date time => exact .date time
      | decimal y => exact .decimal (writes_toFixed y)
    · simp [Content.nodes] at h
  | array ts ih =>
    rw [keysKept_array, contentSerialize, itemsSerialize_eq, ← hlist ih]
    refine ⟨fun h => ?_, .array⟩
    cases h with
    | array h => exact h
  | object ps ih =>
    rw [keysKept_object, contentSerialize, ← hlist ih]
    constructor
    · intro h
      cases h with
      | object hkeys hvals =>
        have hkept : ∀ a ∈ ps, isKept a.1 = true := by
          rw [map_fst_propsSerialize] at hkeys
          exact fun a ha => List.filter_eq_self.1 hkeys.symm a.1 (List.mem_map_of_mem ha)
        rw [map_snd_propsSerialize hkept] at hvals
        exact ⟨hkept, hvals⟩
    · rintro ⟨hkept, hvals⟩
      refine .object ?_ ?_
      · rw [map_fst_propsSerialize]
        refine (List.filter_eq_self.2 fun k hk => ?_).symm
        obtain ⟨a, ha, rfl⟩ := List.mem_map.1 hk
        exact hkept a ha
      · rwa [map_snd_propsSerialize hkept]

/-! ## The copy in the heap -/

/-- The cells of the value that is returned : new ones, and dates that were there. With `good`
the new objects are plain. -/
def Fresh (k : ℕ) (good : Prop) (r : ℕ) (c : Cell Leaf) : Prop :=
  (k ≤ r ∨ ∃ time, c = .leaf (.date time)) ∧ (good → c.IsPlain)

/-- A value of plain objects. -/
def Plain (h : Heap Leaf) (v : Val) (t : Content Leaf) : Prop :=
  Denotes (fun _ c => c.IsPlain) h v t

/-- With fuel enough the call returns. -/
def Returns (h : Heap Leaf) (v : Val) (h' : Heap Leaf) (w : Val) : Prop :=
  ∃ n, ∀ m, n ≤ m → serialize m h v = some (h', w)

/-- What a call does on a value with this content. -/
def Copies (t : Content Leaf) : Prop :=
  ∀ (good : Prop) (h : Heap Leaf) (v : Val), (good → KeysKept t) → Plain h v t →
    ∃ h' w, Returns h v h' w ∧ Extends h h' ∧
      Denotes (Fresh h.length good) h' w (contentSerialize t)

variable {good : Prop} {h H : Heap Leaf} {v : Val} {t : Content Leaf} {r : ℕ} {c : Cell Leaf}

/-- One element of an array, or one property of an object : `out` changes, and nothing that was
read before. -/
theorem advance (ht : Copies t) (hgood : good → KeysKept t) (hv : Plain h v t)
    (hr : H[r]? = some c) (hc : ∀ time, c ≠ .leaf (.date time)) (hlen : h.length ≤ r)
    (hext : Extends h H) (f : Val → Cell Leaf → Cell Leaf) :
    ∃ H' w, Returns H v H' w ∧ Extends h (H'.modify r (f w)) ∧
      (H'.modify r (f w))[r]? = some (f w c) ∧
      Denotes (Fresh (r + 1) good) (H'.modify r (f w)) w (contentSerialize t) ∧
      ∀ u s, Denotes (Fresh (r + 1) good) H u s →
        Denotes (Fresh (r + 1) good) (H'.modify r (f w)) u s := by
  obtain ⟨H', w, hrun, hext', hw⟩ := ht good H v hgood (hv.extend hext)
  have hr' : H'[r]? = some c := hext' r c hr
  have hlt : r < H.length := (List.getElem?_eq_some_iff.1 hr).1
  have hnot : ¬ Fresh (r + 1) good r c := by
    rintro ⟨hle | ⟨time, hdate⟩, -⟩
    · omega
    · exact hc time hdate
  have hw' : Denotes (Fresh (r + 1) good) H' w (contentSerialize t) :=
    hw.mono fun i d hd => ⟨hd.1.imp_left fun hle => by omega, hd.2⟩
  refine ⟨H', w, hrun, (hext.trans hext').modify hlen _, ?_, hw'.modify hr' hnot _,
    fun u s hu => (hu.extend hext').modify hr' hnot _⟩
  simp [hr']

/-- `value.map(…)`. -/
theorem foldlM_mapItem {items ws : List Val} {ts us : List (Content Leaf)}
    (hitems : List.Forall₂ (Plain h) items ts) (hts : ∀ t ∈ ts, Copies t)
    (hgood : good → ∀ t ∈ ts, KeysKept t) (hlen : h.length ≤ r) (hext : Extends h H)
    (hr : H[r]? = some (.array ws)) (hws : List.Forall₂ (Denotes (Fresh (r + 1) good) H) ws us) :
    ∃ H' ws', (∃ n, ∀ m, n ≤ m → items.foldlM (mapItem (serialize m) r) H = some H') ∧
      Extends h H' ∧ H'[r]? = some (.array ws') ∧
      List.Forall₂ (Denotes (Fresh (r + 1) good) H') ws' (us ++ ts.map contentSerialize) := by
  induction hitems generalizing H ws us with
  | nil => exact ⟨H, ws, ⟨0, fun _ _ => rfl⟩, hext, hr, by simpa using hws⟩
  | @cons item t items ts hv _ ih =>
    obtain ⟨ht, hts⟩ := List.forall_mem_cons.1 hts
    obtain ⟨H', w, ⟨n, hn⟩, hext', hr', hw, hold⟩ :=
      advance ht (fun hg => hgood hg _ List.mem_cons_self) hv hr (by simp) hlen hext Cell.push
    obtain ⟨H'', ws'', ⟨k, hk⟩, hext'', hr'', hws''⟩ :=
      ih hts (fun hg t ht => hgood hg t (List.mem_cons_of_mem _ ht)) hext' hr'
        (List.rel_append (hws.imp fun u s => hold u s) (.cons hw .nil))
    refine ⟨H'', ws'', ⟨max n k, fun m hm => ?_⟩, hext'', hr'', by simpa using hws''⟩
    have hitem : mapItem (serialize m) r H item = some (H'.modify r (Cell.push w)) := by
      simp [mapItem, hn m (by omega)]
    rw [List.foldlM_cons, hitem]
    exact hk m (by omega)

/-- What the loop over the entries has built : the object `out` with the properties `us`. -/
structure Built (good : Prop) (r : ℕ) (us : List (Key × Content Leaf)) (H : Heap Leaf)
    (proto : Proto) (props : Props) : Prop where
  out : H[r]? = some (.object proto props)
  plain : good → proto = .objectPrototype
  keys : props.entries.map Prod.fst = us.map Prod.fst
  vals : List.Forall₂ (Denotes (Fresh (r + 1) good) H) (props.entries.map Prod.snd)
    (us.map Prod.snd)

/-- `out[key] = …` under another name than `__proto__`. -/
theorem Built.assign {us : List (Key × Content Leaf)} {H' : Heap Leaf} {proto : Proto}
    {props : Props} {key : String} {w : Val} (hb : Built good r us H proto props)
    (hkey : isKept (.name key) = true) (hnew : Key.name key ∉ us.map Prod.fst)
    (hr : H'[r]? = some (Cell.assign key w (.object proto props)))
    (hw : Denotes (Fresh (r + 1) good) H' w t)
    (hold : ∀ u s, Denotes (Fresh (r + 1) good) H u s → Denotes (Fresh (r + 1) good) H' u s) :
    Built good r (us ++ [(.name key, t)]) H' proto (props.set (.name key) w) := by
  have hentries := Props.entries_set (p := props) (by rwa [hb.keys]) w
  refine ⟨?_, hb.plain, ?_, ?_⟩
  · rw [hr, Cell.assign_of_ne (by simpa [isKept] using hkey)]
  · simp [hentries, hb.keys]
  · rw [hentries, List.map_append, List.map_append]
    exact List.rel_append (hb.vals.imp hold) (.cons hw .nil)

/-- `out["__proto__"] = …` gives `out` no property. -/
theorem Built.setProto {us : List (Key × Content Leaf)} {H' : Heap Leaf} {props : Props} {w : Val}
    (hb : Built good r us H .objectPrototype props) (hgood : ¬ good)
    (hr : H'[r]? = some (Cell.assign "__proto__" w (.object .objectPrototype props)))
    (hold : ∀ u s, Denotes (Fresh (r + 1) good) H u s → Denotes (Fresh (r + 1) good) H' u s) :
    ∃ proto, Built good r us H' proto props := by
  obtain ⟨proto, hproto⟩ := Cell.assign_proto (L := Leaf) w props
  exact ⟨proto, hr.trans (congrArg some hproto), fun hg => absurd hg hgood, hb.keys,
    hb.vals.imp hold⟩

/-- One pass of the loop. The prototype changes at `__proto__` only. -/
theorem Built.entry {us : List (Key × Content Leaf)} {H' : Heap Leaf} {proto : Proto}
    {props : Props} {key : String} {w : Val} (hb : Built good r us H proto props)
    (hgood : good → isKept (.name key) = true)
    (hproto : proto = .objectPrototype ∨ key ≠ "__proto__")
    (hnew : Key.name key ∉ us.map Prod.fst)
    (hr : H'[r]? = some (Cell.assign key w (.object proto props)))
    (hw : Denotes (Fresh (r + 1) good) H' w (contentSerialize t))
    (hold : ∀ u s, Denotes (Fresh (r + 1) good) H u s → Denotes (Fresh (r + 1) good) H' u s) :
    ∃ proto' props', Built good r (us ++ propsSerialize [(.name key, t)]) H' proto' props' ∧
      (key = "__proto__" ∨ proto' = proto) := by
  by_cases hkey : key = "__proto__"
  · subst hkey
    obtain rfl : proto = .objectPrototype := hproto.resolve_right (absurd rfl)
    obtain ⟨proto', hb'⟩ := hb.setProto (fun hg => by simpa [isKept] using hgood hg) hr hold
    exact ⟨proto', props, by simpa [propsSerialize, isKept] using hb', .inl rfl⟩
  · have hkept : isKept (.name key) = true := by simpa [isKept] using hkey
    refine ⟨proto, props.set (.name key) w, ?_, .inr rfl⟩
    rw [propsSerialize, if_pos hkept, propsSerialize]
    exact hb.assign hkept hnew hr hw hold

/-- `for (const [key, val] of Object.entries(value))`. -/
theorem foldlM_setEntry {entries : List (Key × Val)} {ps us : List (Key × Content Leaf)}
    {proto : Proto} {props : Props} (hkeys : entries.map Prod.fst = ps.map Prod.fst)
    (hvals : List.Forall₂ (Plain h) (entries.map Prod.snd) (ps.map Prod.snd))
    (hps : ∀ t ∈ ps.map Prod.snd, Copies t)
    (hgood : good → KeysKept (.object ps)) (hlen : h.length ≤ r) (hext : Extends h H)
    (hb : Built good r us H proto props)
    (hproto : proto = .objectPrototype ∨ Key.name "__proto__" ∉ ps.map Prod.fst)
    (hnodup : (us.map Prod.fst ++ ps.map Prod.fst).Nodup) :
    ∃ H' proto' props',
      (∃ n, ∀ m, n ≤ m →
        (entries.filterMap Props.entry?).foldlM (setEntry (serialize m) r) H = some H') ∧
      Extends h H' ∧ Built good r (us ++ propsSerialize ps) H' proto' props' := by
  induction ps generalizing entries us H proto props with
  | nil =>
    rw [List.map_nil, List.map_eq_nil_iff] at hkeys
    subst hkeys
    exact ⟨H, proto, props, ⟨0, fun _ _ => rfl⟩, hext, by simpa [propsSerialize] using hb⟩
  | cons a ps ih =>
    obtain _ | ⟨e, entries⟩ := entries
    · simp at hkeys
    obtain ⟨k, v⟩ := e
    obtain ⟨k', t⟩ := a
    obtain ⟨rfl, hkeys'⟩ := List.cons.inj hkeys
    obtain ⟨hv, hvals'⟩ := List.forall₂_cons.1 hvals
    obtain ⟨ht, hps'⟩ := List.forall_mem_cons.1 hps
    rw [keysKept_object] at hgood
    have hgood' : good → KeysKept (.object ps) := fun hg => keysKept_object.2
      ⟨fun a ha => (hgood hg).1 a (List.mem_cons_of_mem _ ha),
        fun t ht => (hgood hg).2 t (List.mem_cons_of_mem _ ht)⟩
    have hrest : (us.map Prod.fst ++ ps.map Prod.fst).Nodup :=
      hnodup.sublist ((List.sublist_cons_self _ _).append_left _)
    have hnew : k ∉ us.map Prod.fst ∧ k ∉ ps.map Prod.fst := by
      rw [List.map_cons, List.nodup_append, List.nodup_cons] at hnodup
      exact ⟨fun hk => hnodup.2.2 k hk k List.mem_cons_self rfl, hnodup.2.1.1⟩
    cases k with
    | symbol id =>
      -- not an entry
      obtain ⟨H', proto', props', hrun, hext', hb'⟩ := ih hkeys' hvals' hps' hgood' hext hb
        (hproto.imp_right (List.not_mem_of_not_mem_cons ·)) hrest
      exact ⟨H', proto', props', hrun, hext', hb'⟩
    | name key =>
      obtain ⟨H', w, ⟨n, hn⟩, hext', hr', hw, hold⟩ :=
        advance ht (fun hg => (hgood hg).2 _ List.mem_cons_self) hv hb.out (by simp) hlen hext
          (Cell.assign key)
      have hentry : ∀ m, n ≤ m →
          setEntry (serialize m) r H (key, v) = some (H'.modify r (Cell.assign key w)) := by
        intro m hm
        simp [setEntry, hn m hm]
      obtain ⟨proto', props', hb', hproto'⟩ :=
        hb.entry (fun hg => (hgood hg).1 _ List.mem_cons_self)
          (hproto.imp_right fun h he => h (he ▸ List.mem_cons_self)) hnew.1 hr' hw hold
      have hunique : ((us ++ propsSerialize [(.name key, t)]).map Prod.fst ++
          ps.map Prod.fst).Nodup := by
        rw [List.map_append, map_fst_propsSerialize, List.append_assoc]
        exact hnodup.sublist ((List.filter_sublist.append_right _).append_left _)
      have hnext : proto' = .objectPrototype ∨ Key.name "__proto__" ∉ ps.map Prod.fst := by
        rcases hproto' with rfl | rfl
        · exact .inr hnew.2
        · exact hproto.imp_right (List.not_mem_of_not_mem_cons ·)
      obtain ⟨H'', proto'', props'', ⟨k, hk⟩, hext'', hb''⟩ :=
        ih hkeys' hvals' hps' hgood' hext' hb' hnext hunique
      rw [propsSerialize_cons, ← List.append_assoc]
      refine ⟨H'', proto'', props'', ⟨max n k, fun m hm => ?_⟩, hext'', hb''⟩
      rw [Props.filterMap_entry?_name, List.foldlM_cons, hentry m (by omega)]
      exact hk m (by omega)

/-- The cells that were there stay, and the copy has the content with its Decimals written out. -/
theorem copies (t : Content Leaf) : Copies t := by
  induction t using Content.induct with
  | primitive x =>
    intro good h v _ hv
    cases hv
    refine ⟨h, .primitive x, ⟨0, fun m _ => ?_⟩, .refl h, .primitive x⟩
    cases m <;> rfl
  | leaf x =>
    intro good h v _ hv
    cases hv with
    | @leaf r _ hr _ =>
      cases x with
      | date time =>
        refine ⟨h, .ref r, ⟨1, fun m hm => ?_⟩, .refl h,
          .leaf hr ⟨.inr ⟨time, rfl⟩, fun _ => trivial⟩⟩
        obtain ⟨m, rfl⟩ := Nat.exists_eq_add_of_le' hm
        simp [serialize, hr]
      | decimal x =>
        refine ⟨h, .primitive (.string x.toFixed), ⟨1, fun m hm => ?_⟩, .refl h, .primitive _⟩
        obtain ⟨m, rfl⟩ := Nat.exists_eq_add_of_le' hm
        simp [serialize, hr]
  | array ts ih =>
    intro good h v hgood hv
    cases hv with
    | @array r items _ hr _ hitems =>
      have hout : (h ++ [Cell.array []])[h.length]? = some (Cell.array []) := by simp
      obtain ⟨H', ws, ⟨n, hn⟩, hext, hr', hws⟩ := foldlM_mapItem hitems ih
        (fun hg => keysKept_array.1 (hgood hg)) (le_refl _) (extends_append h _) hout .nil
      refine ⟨H', .ref h.length, ⟨n + 1, fun m hm => ?_⟩, hext,
        .array hr' ⟨.inl (le_refl _), fun _ => trivial⟩ ?_⟩
      · obtain ⟨m, rfl⟩ := Nat.exists_eq_add_of_le' (show 1 ≤ m by omega)
        simp [serialize, hr, hn m (by omega)]
      · rw [itemsSerialize_eq]
        exact hws.imp fun u s hu => hu.mono fun i c hc => ⟨hc.1.imp_left (by omega), hc.2⟩
  | object ps ih =>
    intro good h v hgood hv
    cases hv with
    | @object r proto props _ hr hplain hkeys hvals =>
      have hout : Built good h.length [] (h ++ [Cell.object .objectPrototype .empty])
          .objectPrototype .empty := ⟨by simp, fun _ => rfl, rfl, .nil⟩
      have hnodup : (ps.map Prod.fst).Nodup := hkeys ▸ props.nodup
      obtain ⟨H', proto', props', ⟨n, hn⟩, hext, hb⟩ := foldlM_setEntry hkeys hvals ih hgood
        (le_refl _) (extends_append h _) hout (.inl rfl) hnodup
      refine ⟨H', .ref h.length, ⟨n + 1, fun m hm => ?_⟩, hext,
        .object hb.out ⟨.inl (le_refl _), fun hg => .inl (hb.plain hg)⟩ hb.keys ?_⟩
      · obtain ⟨m, rfl⟩ := Nat.exists_eq_add_of_le' (show 1 ≤ m by omega)
        have hproto : proto = .objectPrototype ∨ proto = .null := hplain
        simp [serialize, hr, hproto, Props.names, hn m (by omega)]
      · exact hb.vals.imp fun u s hu => hu.mono fun i c hc => ⟨hc.1.imp_left (by omega), hc.2⟩

/-! ## The interceptor on a response -/

/-- What a value holds, whatever the prototypes of its objects are. -/
def Holds (h : Heap Leaf) (v : Val) (t : Content Leaf) : Prop :=
  Denotes (fun _ _ => True) h v t

/-- The call returns a value without Decimals, converted from the one it was given, leaves all
cells as they were, and would return the same once more. -/
def Conforms (h : Heap Leaf) (v : Val) (t : Content Leaf) : Prop :=
  ∃ h' w u, Returns h v h' w ∧ Holds h' w u ∧ DecimalFree u ∧ Converted t u ∧ Extends h h' ∧
    ∃ h'' x, Returns h' w h'' x ∧ Holds h'' x u

theorem Returns.unique {h' h'' : Heap Leaf} {w x : Val} (h₁ : Returns h v h' w)
    (h₂ : Returns h v h'' x) : h' = h'' ∧ w = x := by
  obtain ⟨n, hn⟩ := h₁
  obtain ⟨m, hm⟩ := h₂
  have heq := (hn (max n m) (by omega)).symm.trans (hm (max n m) (by omega))
  exact Prod.mk.inj (Option.some.inj heq)

theorem keysKept_of_conforms (hv : Plain h v t) (hc : Conforms h v t) : KeysKept t := by
  obtain ⟨h', w, hrun, -, hw⟩ := copies t False h v False.elim hv
  have hholds : Holds h' w (contentSerialize t) := hw.mono fun _ _ _ => trivial
  obtain ⟨h₁, w₁, u, hrun₁, hu, -, hconv, -⟩ := hc
  obtain ⟨rfl, rfl⟩ := hrun.unique hrun₁
  rw [hu.unique hholds] at hconv
  exact converted_contentSerialize.1 hconv

theorem conforms_of_keysKept (hv : Plain h v t) (hkept : KeysKept t) : Conforms h v t := by
  obtain ⟨h', w, hrun, hext, hw⟩ := copies t True h v (fun _ => hkept) hv
  have hplain : Plain h' w (contentSerialize t) := hw.mono fun _ _ hc => hc.2 trivial
  -- the copy is a value of plain objects, and the second pass copies it as it is
  obtain ⟨h'', x, hrun', -, hx⟩ := copies (contentSerialize t) False h' w False.elim hplain
  rw [contentSerialize_idem] at hx
  exact ⟨h', w, contentSerialize t, hrun, hw.mono fun _ _ _ => trivial,
    decimalFree_contentSerialize t, converted_contentSerialize.2 hkept, hext, h'', x, hrun',
    hx.mono fun _ _ _ => trivial⟩

/-- The call does what it should on a value of plain objects if and only if none of them has a
key that is a symbol or the name `__proto__`. -/
theorem serialize_conforms_iff (hv : Plain h v t) : Conforms h v t ↔ KeysKept t :=
  ⟨keysKept_of_conforms hv, conforms_of_keysKept hv⟩

/-- `{ total: new Decimal("10.00"), [key]: "x" }`. -/
def demoHeap (key : String) : Heap Leaf :=
  [.object .objectPrototype
      ((Props.empty.set (.name "total") (.ref 1)).set (.name key) (.primitive (.string "x"))),
    .leaf (.decimal (.finite ⟨1000, 2⟩))]

/-- A total and a text under the key. -/
def demoContent (key : String) : Content Leaf :=
  .object [(.name "total", .leaf (.decimal (.finite ⟨1000, 2⟩))),
    (.name key, .primitive (.string "x"))]

theorem plain_demo {key : String} (hkey : key ≠ "total") :
    Plain (demoHeap key) (.ref 0) (demoContent key) := by
  have hentries : ((Props.empty.set (.name "total") (.ref 1)).set (.name key)
      (.primitive (.string "x"))).entries =
      [(.name "total", .ref 1), (.name key, .primitive (.string "x"))] := by
    simp [Props.set, Props.empty, hkey]
  refine .object rfl (.inl rfl) (by rw [hentries]; rfl) ?_
  rw [hentries]
  exact .cons (.leaf rfl trivial) (.cons (.primitive _) .nil)

theorem keysKept_demo {key : String} : KeysKept (demoContent key) ↔ key ≠ "__proto__" := by
  rw [demoContent, keysKept_object]
  simp [isKept, KeysKept, Content.nodes]

theorem serialize_conforms_demo : Conforms (demoHeap "title") (.ref 0) (demoContent "title") :=
  (serialize_conforms_iff (plain_demo (by decide))).2 (keysKept_demo.2 (by decide))

/-- The key `__proto__`, as `JSON.parse` makes it, is not in the copy. -/
theorem serialize_loses_proto :
    Plain (demoHeap "__proto__") (.ref 0) (demoContent "__proto__") ∧
      (∃ h', serialize 2 (demoHeap "__proto__") (.ref 0) = some (h', .ref 2) ∧
        h'[2]? = some (.object .objectPrototype
          (Props.empty.set (.name "total") (.primitive (.string "10.00"))))) ∧
      ¬ Conforms (demoHeap "__proto__") (.ref 0) (demoContent "__proto__") := by
  have hplain : Plain (demoHeap "__proto__") (.ref 0) (demoContent "__proto__") :=
    plain_demo (by decide)
  refine ⟨hplain, ⟨_, rfl, by decide⟩, fun hc => ?_⟩
  exact keysKept_demo.1 (keysKept_of_conforms hplain hc) rfl

end DecimalToString

end Kreav
