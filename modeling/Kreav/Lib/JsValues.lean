import Mathlib.Data.Int.Notation
import Mathlib.Data.List.Forall2
import Mathlib.Data.List.Nodup

/-!
# JavaScript values

A value is a primitive or a reference to a cell of the heap : an array, an ordinary object with
its prototype and its own properties, or an object of a class, which is a leaf (`L`). The content
of a value without cycles is a tree, and `Denotes ok h v t` says that `t` is read from `v` in the
heap, through cells that satisfy `ok` alone.

A cell that is not read can change without changing what is read (`Denotes.frame`), and a value
has one content (`Denotes.unique`).
-/

namespace Js

/-- A primitive value. -/
inductive Primitive
  | undefined
  | null
  | boolean (b : Bool)
  /-- The bits of a double. -/
  | number (bits : UInt64)
  | bigint (i : ℤ)
  | string (s : String)
  | symbol (id : ℕ)
  deriving DecidableEq

/-- A key of a property. -/
inductive Key
  | name (s : String)
  | symbol (id : ℕ)
  deriving DecidableEq

/-- A primitive value, or a reference to a cell. -/
inductive Val
  | primitive (x : Primitive)
  | ref (r : ℕ)
  deriving DecidableEq

/-- The own properties of an object, in the order of its keys. They are enumerable and hold
data. -/
structure Props where
  entries : List (Key × Val)
  nodup : (entries.map Prod.fst).Nodup
  deriving DecidableEq

/-- The prototype of an object. -/
inductive Proto
  | objectPrototype
  | null
  | value (r : ℕ)
  deriving DecidableEq

/-- A cell of the heap. A leaf is a value of a class with its own behaviour. -/
inductive Cell (L : Type*)
  | leaf (x : L)
  | array (items : List Val)
  | object (proto : Proto) (props : Props)
  deriving DecidableEq

/-- The cells, by their references. -/
abbrev Heap (L : Type*) := List (Cell L)

/-- What a value holds, with the references followed. -/
inductive Content (L : Type*)
  | primitive (x : Primitive)
  | leaf (x : L)
  | array (items : List (Content L))
  | object (props : List (Key × Content L))

namespace Props

/-- `{}`. -/
def empty : Props :=
  ⟨[], List.nodup_nil⟩

/-- A property whose key is a name. -/
def entry? : Key × Val → Option (String × Val)
  | (.name s, v) => some (s, v)
  | (.symbol _, _) => none

theorem filterMap_entry?_name (s : String) (v : Val) (entries : List (Key × Val)) :
    ((.name s, v) :: entries).filterMap entry? = (s, v) :: entries.filterMap entry? :=
  rfl

/-- `Object.entries(value)`. -/
def names (p : Props) : List (String × Val) :=
  p.entries.filterMap entry?

/-- The value of an own property, or a new property behind the others. -/
def set (p : Props) (k : Key) (v : Val) : Props :=
  if h : k ∈ p.entries.map Prod.fst then
    { entries := p.entries.map fun a => if a.1 = k then (k, v) else a
      nodup := by
        have hkeys : (p.entries.map fun a => if a.1 = k then (k, v) else a).map Prod.fst =
            p.entries.map Prod.fst := by
          rw [List.map_map]
          refine List.map_congr_left fun a _ => ?_
          by_cases ha : a.1 = k
          · simp [ha]
          · simp [ha]
        rw [hkeys]
        exact p.nodup }
  else
    { entries := p.entries ++ [(k, v)]
      nodup := by
        rw [List.map_append]
        exact List.Nodup.append p.nodup (List.nodup_singleton k) (by simpa using h) }

theorem entries_set {p : Props} {k : Key} (h : k ∉ p.entries.map Prod.fst) (v : Val) :
    (p.set k v).entries = p.entries ++ [(k, v)] := by
  rw [set, dif_neg h]

end Props

variable {L : Type*}

namespace Cell

/-- `out[key] = v` on an object. A name that `Object.prototype` has a setter for sets the
prototype, if `v` is one, and no own property. -/
def assign (key : String) (v : Val) : Cell L → Cell L
  | object proto props =>
    if key = "__proto__" ∧ proto ≠ .null then
      match v with
      | .ref r => object (.value r) props
      | .primitive .null => object .null props
      | .primitive _ => object proto props
    else object proto (props.set (.name key) v)
  | c => c

theorem assign_of_ne {key : String} (h : key ≠ "__proto__") (v : Val) (proto : Proto)
    (props : Props) :
    assign key v (object proto props : Cell L) = object proto (props.set (.name key) v) :=
  if_neg fun hkey => h hkey.1

theorem assign_proto (v : Val) (props : Props) :
    ∃ proto, assign "__proto__" v (object .objectPrototype props : Cell L) =
      object proto props := by
  match v with
  | .ref r => exact ⟨_, rfl⟩
  | .primitive x => cases x <;> exact ⟨_, rfl⟩

/-- The next element of the array that `map` returns. -/
def push (v : Val) : Cell L → Cell L
  | array items => array (items ++ [v])
  | c => c

/-- An object is plain if its prototype is `Object.prototype` or null. -/
def IsPlain : Cell L → Prop
  | object proto _ => proto = .objectPrototype ∨ proto = .null
  | _ => True

end Cell

/-! ## Trees -/

namespace Content

mutual
/-- The content and the contents in it. -/
def nodes : Content L → List (Content L)
  | primitive x => [primitive x]
  | leaf x => [leaf x]
  | array items => array items :: nodesOfItems items
  | object props => object props :: nodesOfProps props

/-- The nodes of a list of values. -/
def nodesOfItems : List (Content L) → List (Content L)
  | [] => []
  | t :: ts => t.nodes ++ nodesOfItems ts

/-- The nodes of the values of properties. -/
def nodesOfProps : List (Key × Content L) → List (Content L)
  | [] => []
  | (_, t) :: ps => t.nodes ++ nodesOfProps ps
end

theorem nodesOfItems_eq (ts : List (Content L)) : nodesOfItems ts = ts.flatMap nodes := by
  induction ts with
  | nil => rfl
  | cons t ts ih => rw [nodesOfItems, ih, List.flatMap_cons]

theorem nodesOfProps_eq (ps : List (Key × Content L)) :
    nodesOfProps ps = ps.flatMap fun a => a.2.nodes := by
  induction ps with
  | nil => rfl
  | cons a ps ih => rw [nodesOfProps, ih, List.flatMap_cons]

theorem mem_nodes_array {s : Content L} {items : List (Content L)} :
    s ∈ (array items).nodes ↔ s = array items ∨ ∃ t ∈ items, s ∈ t.nodes := by
  rw [nodes, nodesOfItems_eq, List.mem_cons, List.mem_flatMap]

theorem mem_nodes_object {s : Content L} {props : List (Key × Content L)} :
    s ∈ (object props).nodes ↔ s = object props ∨ ∃ a ∈ props, s ∈ a.2.nodes := by
  rw [nodes, nodesOfProps_eq, List.mem_cons, List.mem_flatMap]

/-- The induction over the elements of arrays and the properties of objects. -/
theorem induct {P : Content L → Prop} (primitive : ∀ x, P (.primitive x)) (leaf : ∀ x, P (.leaf x))
    (array : ∀ items, (∀ t ∈ items, P t) → P (.array items))
    (object : ∀ props : List (Key × Content L), (∀ t ∈ props.map Prod.snd, P t) → P (.object props))
    (t : Content L) : P t := by
  refine @Content.rec L P (fun ts => ∀ t ∈ ts, P t) (fun ps => ∀ t ∈ ps.map Prod.snd, P t)
    (fun a => P a.2) primitive leaf array object ?_ ?_ ?_ ?_ ?_ t
  · simp
  · exact fun t ts ht hts => List.forall_mem_cons.2 ⟨ht, hts⟩
  · simp
  · exact fun a ps ha hps => List.forall_mem_cons.2 ⟨ha, hps⟩
  · exact fun _ _ ht => ht

end Content

/-! ## What a value holds -/

theorem eq_of_map_eq {α β : Type*} {ps qs : List (α × β)} (hfst : ps.map Prod.fst = qs.map Prod.fst)
    (hsnd : ps.map Prod.snd = qs.map Prod.snd) : ps = qs := by
  rw [← List.zip_unzip ps, ← List.zip_unzip qs, List.unzip_eq_map, List.unzip_eq_map, hfst, hsnd]

theorem forall₂_imp_mem {α β : Type*} {R S : α → β → Prop} {xs : List α} {ys : List β}
    (h : List.Forall₂ R xs ys) (himp : ∀ y ∈ ys, ∀ x, R x y → S x y) : List.Forall₂ S xs ys := by
  induction h with
  | nil => exact .nil
  | cons hR _ ih =>
    exact .cons (himp _ List.mem_cons_self _ hR)
      (ih fun y hy => himp y (List.mem_cons_of_mem _ hy))

theorem forall₂_unique {α β : Type*} {R S : α → β → Prop} {xs : List α} {ys zs : List β}
    (hys : List.Forall₂ R xs ys) (hzs : List.Forall₂ S xs zs)
    (huniq : ∀ y ∈ ys, ∀ x z, R x y → S x z → y = z) : ys = zs := by
  induction hys generalizing zs with
  | nil =>
    cases hzs
    rfl
  | cons hR _ ih =>
    cases hzs with
    | cons hS hzs =>
      rw [huniq _ List.mem_cons_self _ _ hR hS,
        ih hzs fun y hy => huniq y (List.mem_cons_of_mem _ hy)]

/-- The value holds the content, through cells that are `ok`. -/
inductive Denotes (ok : ℕ → Cell L → Prop) (h : Heap L) : Val → Content L → Prop
  | primitive (x : Primitive) : Denotes ok h (.primitive x) (.primitive x)
  | leaf {r : ℕ} {x : L} (hr : h[r]? = some (.leaf x)) (hok : ok r (.leaf x)) :
    Denotes ok h (.ref r) (.leaf x)
  | array {r : ℕ} {items : List Val} {ts : List (Content L)} (hr : h[r]? = some (.array items))
    (hok : ok r (.array items)) (hitems : List.Forall₂ (Denotes ok h) items ts) :
    Denotes ok h (.ref r) (.array ts)
  | object {r : ℕ} {proto : Proto} {props : Props} {ts : List (Key × Content L)}
    (hr : h[r]? = some (.object proto props)) (hok : ok r (.object proto props))
    (hkeys : props.entries.map Prod.fst = ts.map Prod.fst)
    (hvals : List.Forall₂ (Denotes ok h) (props.entries.map Prod.snd) (ts.map Prod.snd)) :
    Denotes ok h (.ref r) (.object ts)

/-- The cells of `h` are as they were. -/
def Extends (h h' : Heap L) : Prop :=
  ∀ (r : ℕ) (c : Cell L), h[r]? = some c → h'[r]? = some c

theorem Extends.refl (h : Heap L) : Extends h h :=
  fun _ _ hr => hr

theorem Extends.trans {h h' h'' : Heap L} (h₁ : Extends h h') (h₂ : Extends h' h'') :
    Extends h h'' :=
  fun r c hr => h₂ r c (h₁ r c hr)

theorem extends_append (h t : Heap L) : Extends h (h ++ t) := by
  intro r c hr
  obtain ⟨hlt, -⟩ := List.getElem?_eq_some_iff.1 hr
  rwa [List.getElem?_append_left hlt]

theorem Extends.length_le {h h' : Heap L} (hext : Extends h h') : h.length ≤ h'.length := by
  by_contra hlt
  have hsome : h[h'.length]? = some (h.get ⟨h'.length, by omega⟩) :=
    List.getElem?_eq_getElem _
  have hnone := hext _ _ hsome
  rw [List.getElem?_eq_none (Nat.le_refl _)] at hnone
  cases hnone

/-- A new cell may change. -/
theorem Extends.modify {h h' : Heap L} (hext : Extends h h') {r : ℕ} (hr : h.length ≤ r)
    (f : Cell L → Cell L) : Extends h (h'.modify r f) := by
  intro i c hi
  obtain ⟨hlt, -⟩ := List.getElem?_eq_some_iff.1 hi
  have hne : r ≠ i := by omega
  simp [hext i c hi, hne]

variable {ok ok' : ℕ → Cell L → Prop} {h h' : Heap L} {v : Val} {t t' : Content L}

namespace Denotes

/-- Only the cells that are read matter. -/
theorem frame (hframe : ∀ r c, h[r]? = some c → ok r c → h'[r]? = some c ∧ ok' r c)
    (ht : Denotes ok h v t) : Denotes ok' h' v t := by
  induction t using Content.induct generalizing v with
  | primitive x =>
    cases ht
    exact .primitive x
  | leaf x =>
    cases ht with
    | leaf hr hok =>
      obtain ⟨hr', hok'⟩ := hframe _ _ hr hok
      exact .leaf hr' hok'
  | array ts ih =>
    cases ht with
    | array hr hok hitems =>
      obtain ⟨hr', hok'⟩ := hframe _ _ hr hok
      exact .array hr' hok' (forall₂_imp_mem hitems fun t ht _ => ih t ht)
  | object ts ih =>
    cases ht with
    | object hr hok hkeys hvals =>
      obtain ⟨hr', hok'⟩ := hframe _ _ hr hok
      exact .object hr' hok' hkeys (forall₂_imp_mem hvals fun t ht _ => ih t ht)

theorem mono (hok : ∀ r c, ok r c → ok' r c) (ht : Denotes ok h v t) : Denotes ok' h v t :=
  ht.frame fun r c hr hc => ⟨hr, hok r c hc⟩

theorem extend (hext : Extends h h') (ht : Denotes ok h v t) : Denotes ok h' v t :=
  ht.frame fun r c hr hc => ⟨hext r c hr, hc⟩

/-- A cell that is not read may change. -/
theorem modify {r : ℕ} {c : Cell L} (hr : h[r]? = some c) (hc : ¬ ok r c) (f : Cell L → Cell L)
    (ht : Denotes ok h v t) : Denotes ok (h.modify r f) v t := by
  refine ht.frame fun i d hi hok => ⟨?_, hok⟩
  have hne : r ≠ i := by
    rintro rfl
    obtain rfl := Option.some.inj (hr.symm.trans hi)
    exact hc hok
  simp [hi, hne]

theorem unique (ht : Denotes ok h v t) (ht' : Denotes ok' h v t') : t = t' := by
  induction t using Content.induct generalizing v t' with
  | primitive x =>
    cases ht
    cases ht'
    rfl
  | leaf x =>
    cases ht with
    | leaf hr _ => cases ht' <;> simp_all
  | array ts ih =>
    cases ht with
    | array hr _ hitems =>
      cases ht' with
      | leaf hr' _ => simp [hr] at hr'
      | object hr' _ _ => simp [hr] at hr'
      | array hr' _ hitems' =>
        obtain rfl := Cell.array.inj (Option.some.inj (hr.symm.trans hr'))
        rw [forall₂_unique hitems hitems' fun t ht _ _ h₁ h₂ => ih t ht h₁ h₂]
  | object ts ih =>
    cases ht with
    | object hr _ hkeys hvals =>
      cases ht' with
      | leaf hr' _ => simp [hr] at hr'
      | array hr' _ _ => simp [hr] at hr'
      | object hr' _ hkeys' hvals' =>
        obtain ⟨-, rfl⟩ := Cell.object.inj (Option.some.inj (hr.symm.trans hr'))
        have hvalues := forall₂_unique hvals hvals' fun t ht _ _ h₁ h₂ => ih t ht h₁ h₂
        rw [eq_of_map_eq (hkeys.symm.trans hkeys') hvalues]

end Denotes

end Js
