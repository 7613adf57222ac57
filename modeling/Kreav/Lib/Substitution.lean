import Mathlib.Data.List.Infix

/-!
# Texts with characters replaced

`replaceAll a r` writes `r` for each `a`, and `passes ps` runs one replacement after the other.
A later pass sees what the earlier ones wrote. It does not change it if its character is in none
of their texts, and then the passes are one substitution of all the characters at once
(`passes_eq_substitute`).

A reference is an escape character and a name from a table. `decode` reads the references of a
text : at each escape character, the first name of the table that follows. It reads back what
`substitute` wrote if each replaced character is written as its own reference
(`decode_substitute`).
-/

namespace Substitution

variable {α : Type*} [DecidableEq α]

/-- `s.replace(/a/g, r)`. -/
def replaceAll (a : α) (r : List α) (s : List α) : List α :=
  s.flatMap fun b => if b = a then r else [b]

/-- One replacement after the other. -/
def passes (ps : List (α × List α)) (s : List α) : List α :=
  ps.foldl (fun s p => replaceAll p.1 p.2 s) s

/-- What one character becomes if all are replaced at once. -/
def written (ps : List (α × List α)) (b : α) : List α :=
  match ps.find? fun p => p.1 = b with
  | some p => p.2
  | none => [b]

/-- Each character as it is written. -/
def substitute (ps : List (α × List α)) (s : List α) : List α :=
  s.flatMap (written ps)

@[simp] theorem substitute_nil (ps : List (α × List α)) : substitute ps [] = [] :=
  rfl

@[simp] theorem substitute_cons (ps : List (α × List α)) (b : α) (s : List α) :
    substitute ps (b :: s) = written ps b ++ substitute ps s :=
  List.flatMap_cons

theorem replaceAll_of_not_mem {a : α} {r s : List α} (h : a ∉ s) : replaceAll a r s = s := by
  have hone : ∀ b ∈ s, (if b = a then r else [b]) = [b] := by
    intro b hb
    exact if_neg (ne_of_mem_of_not_mem hb h)
  rw [replaceAll, List.flatMap_congr hone]
  exact List.flatMap_singleton' s

theorem replaceAll_append (a : α) (r s t : List α) :
    replaceAll a r (s ++ t) = replaceAll a r s ++ replaceAll a r t :=
  List.flatMap_append

/-- The characters of the later passes occur in none of the earlier texts. -/
def Fresh (ps : List (α × List α)) : Prop :=
  ps.Pairwise fun p q => q.1 ∉ p.2

instance (ps : List (α × List α)) : Decidable (Fresh ps) :=
  inferInstanceAs (Decidable (List.Pairwise _ _))

theorem passes_append (ps : List (α × List α)) (s t : List α) :
    passes ps (s ++ t) = passes ps s ++ passes ps t := by
  induction ps generalizing s t with
  | nil => rfl
  | cons p ps ih => rw [passes, List.foldl_cons, replaceAll_append]; exact ih _ _

theorem passes_of_not_mem {ps : List (α × List α)} {s : List α} (h : ∀ p ∈ ps, p.1 ∉ s) :
    passes ps s = s := by
  induction ps with
  | nil => rfl
  | cons p ps ih =>
    rw [passes, List.foldl_cons, replaceAll_of_not_mem (h p List.mem_cons_self)]
    exact ih fun q hq => h q (List.mem_cons_of_mem p hq)

/-- On one character the first pass that replaces it is the only one to change anything. -/
theorem passes_singleton {ps : List (α × List α)} (h : Fresh ps) (b : α) :
    passes ps [b] = written ps b := by
  induction ps with
  | nil => rfl
  | cons p ps ih =>
    obtain ⟨hp, hps⟩ := List.pairwise_cons.1 h
    by_cases hb : p.1 = b
    · have hr : replaceAll p.1 p.2 [b] = p.2 := by simp [replaceAll, hb]
      rw [passes, List.foldl_cons, hr, written, List.find?_cons_of_pos (by simpa using hb)]
      exact passes_of_not_mem hp
    · have hr : replaceAll p.1 p.2 [b] = [b] :=
        replaceAll_of_not_mem (by simpa using hb)
      rw [passes, List.foldl_cons, hr, written, List.find?_cons_of_neg (by simpa using hb)]
      exact ih hps

theorem passes_eq_substitute {ps : List (α × List α)} (h : Fresh ps) (s : List α) :
    passes ps s = substitute ps s := by
  induction s with
  | nil => exact passes_of_not_mem (by simp)
  | cons b s ih =>
    rw [← List.singleton_append, passes_append, passes_singleton h, ih]
    rfl

theorem mem_substitute {ps : List (α × List α)} {s : List α} {a : α} :
    a ∈ substitute ps s ↔ ∃ b ∈ s, a ∈ written ps b :=
  List.mem_flatMap

theorem written_cases (ps : List (α × List α)) (b : α) :
    (b, written ps b) ∈ ps ∨ (∀ p ∈ ps, p.1 ≠ b) ∧ written ps b = [b] := by
  unfold written
  split
  · next p hp =>
    obtain rfl : p.1 = b := by simpa using List.find?_some hp
    exact .inl (List.mem_of_find?_eq_some hp)
  · next hp => exact .inr ⟨by simpa using hp, rfl⟩

/-- A replaced character that no text holds is gone. -/
theorem not_mem_substitute {ps : List (α × List α)} {s : List α} {a : α}
    (ha : ∃ p ∈ ps, p.1 = a) (h : ∀ p ∈ ps, a ∉ p.2) : a ∉ substitute ps s := by
  intro hmem
  obtain ⟨b, -, hb⟩ := mem_substitute.1 hmem
  rcases written_cases ps b with hw | ⟨hne, hw⟩
  · exact h _ hw hb
  · obtain ⟨p, hp, rfl⟩ := ha
    rw [hw, List.mem_singleton] at hb
    exact hne p hp hb

/-! ## References -/

/-- The names of the references, without the escape character, and what they stand for. -/
abbrev References (α : Type*) := List (List α × α)

variable {esc : α} {refs : References α}

/-- `decode` with `n` characters to go of a name it has read. -/
def decodeFrom (esc : α) (refs : References α) : ℕ → List α → List α
  | _, [] => []
  | n + 1, _ :: s => decodeFrom esc refs n s
  | 0, b :: s =>
    if b = esc then
      match refs.find? fun r => r.1.isPrefixOf s with
      | some r => r.2 :: decodeFrom esc refs r.1.length s
      | none => b :: decodeFrom esc refs 0 s
    else b :: decodeFrom esc refs 0 s

/-- The text with its references replaced. -/
def decode (esc : α) (refs : References α) (s : List α) : List α :=
  decodeFrom esc refs 0 s

/-- The table has `name` for `b`, and no other name to read before it. -/
def Names (refs : References α) (name : List α) (b : α) : Prop :=
  ∀ s, refs.find? (fun r => r.1.isPrefixOf (name ++ s)) = some (name, b)

theorem decodeFrom_append (name s : List α) :
    decodeFrom esc refs name.length (name ++ s) = decode esc refs s := by
  induction name with
  | nil => rfl
  | cons b name ih => exact ih

theorem decode_reference {name : List α} {b : α} (h : Names refs name b) (s : List α) :
    decode esc refs (esc :: (name ++ s)) = b :: decode esc refs s := by
  rw [decode, decodeFrom, if_pos rfl, h s]
  exact congrArg (b :: ·) (decodeFrom_append name s)

theorem decode_cons {b : α} (h : b ≠ esc) (s : List α) :
    decode esc refs (b :: s) = b :: decode esc refs s := by
  rw [decode, decodeFrom, if_neg h]
  rfl

theorem decode_append {s : List α} (h : esc ∉ s) (t : List α) :
    decode esc refs (s ++ t) = s ++ decode esc refs t := by
  induction s with
  | nil => rfl
  | cons b s ih =>
    rw [List.cons_append, decode_cons (List.ne_of_not_mem_cons h).symm,
      ih (List.not_mem_of_not_mem_cons h), List.cons_append]

theorem decode_eq_self {s : List α} (h : esc ∉ s) : decode esc refs s = s := by
  have happ : decode esc refs (s ++ []) = s ++ decode esc refs [] := decode_append h []
  simpa [decode, decodeFrom] using happ

/-- The replaced characters are written as their references, and the escape character is one of
them. -/
structure Escapes (esc : α) (refs : References α) (ps : List (α × List α)) : Prop where
  name : ∀ p ∈ ps, ∃ name, p.2 = esc :: name ∧ esc ∉ name ∧ Names refs name p.1
  self : ∃ p ∈ ps, p.1 = esc

namespace Escapes

variable {ps : List (α × List α)}

/-- A character is written as a reference, or as it is if it is not the escape character. -/
theorem written_cases (h : Escapes esc refs ps) (b : α) :
    (∃ name, written ps b = esc :: name ∧ esc ∉ name ∧ Names refs name b) ∨
      b ≠ esc ∧ written ps b = [b] := by
  rcases Substitution.written_cases ps b with hw | ⟨hne, hw⟩
  · exact .inl (h.name _ hw)
  · obtain ⟨p, hp, hesc⟩ := h.self
    exact .inr ⟨fun hb => hne p hp (hesc.trans hb.symm), hw⟩

/-- What was escaped is read back, whatever follows. -/
theorem decode_substitute_append (h : Escapes esc refs ps) (s t : List α) :
    decode esc refs (substitute ps s ++ t) = s ++ decode esc refs t := by
  induction s with
  | nil => rfl
  | cons b s ih =>
    rw [substitute_cons, List.append_assoc]
    rcases h.written_cases b with ⟨name, hw, -, hname⟩ | ⟨hb, hw⟩
    · rw [hw, List.cons_append, decode_reference hname, ih, List.cons_append]
    · rw [hw, List.singleton_append, decode_cons hb, ih, List.cons_append]

theorem decode_substitute (h : Escapes esc refs ps) (s : List α) :
    decode esc refs (substitute ps s) = s := by
  simpa [decode, decodeFrom] using h.decode_substitute_append s []

/-- Every escape character of an escaped text starts a reference. -/
theorem starts_reference (h : Escapes esc refs ps) {s pre post : List α}
    (hs : substitute ps s = pre ++ esc :: post) :
    ∃ r ∈ refs, r.1 <+: post := by
  induction s generalizing pre with
  | nil => simp at hs
  | cons b s ih =>
    rw [substitute_cons] at hs
    rcases h.written_cases b with ⟨name, hw, hesc, hname⟩ | ⟨hb, hw⟩
    · rw [hw] at hs
      cases pre with
      | nil =>
        -- the escape character of this reference
        obtain ⟨-, rfl⟩ := List.cons.inj hs
        exact ⟨_, List.mem_of_find?_eq_some (hname []), List.prefix_append _ _⟩
      | cons a pre =>
        -- a later one : the name holds none
        obtain ⟨-, hs⟩ := List.cons.inj hs
        rcases List.append_eq_append_iff.1 hs with ⟨u, -, hrest⟩ | ⟨u, hu, hrest⟩
        · exact ih hrest
        · cases u with
          | nil => exact ih (hrest.symm.trans (List.nil_append _).symm)
          | cons c u =>
            obtain ⟨rfl, -⟩ := List.cons.inj hrest
            simp [hu] at hesc
    · rw [hw] at hs
      cases pre with
      | nil => exact absurd (List.cons.inj hs).1 hb
      | cons a pre => exact ih (List.cons.inj hs).2

end Escapes

end Substitution
