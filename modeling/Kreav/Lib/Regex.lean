import Mathlib.Data.List.TakeDrop
import Mathlib.Data.Nat.Init

/-!
# Regular expressions

The part of the ECMAScript syntax without captures and backtracking : character classes with
bounds, sequences, `?`, the negative lookahead and `$`. `run r k cs` asks whether `r` matches
a prefix of `cs` and `k` accepts what is left, and one lemma for each constructor says when.
-/

/-- A regular expression. -/
inductive Regex
  /-- `p`. -/
  | cls (p : Char → Bool)
  /-- `p{lo,hi}`. Without `hi`, `p{lo,}`. -/
  | times (p : Char → Bool) (lo : ℕ) (hi : Option ℕ)
  | seq (a b : Regex)
  /-- `(?:a)?`. -/
  | opt (a : Regex)
  /-- `(?!a)`. -/
  | notAhead (a : Regex)
  /-- `$`. -/
  | atEnd

namespace Regex

/-- A prefix of so many characters of the class is a match of `p{lo,hi}`. -/
def fits (p : Char → Bool) (lo : ℕ) (hi : Option ℕ) (cs : List Char) (n : ℕ) : Bool :=
  decide (lo ≤ n) && hi.all (fun m => decide (n ≤ m)) && (cs.take n).all p

/-- Match a prefix, and go on with the rest. -/
def run : Regex → (List Char → Bool) → List Char → Bool
  | cls p, k, c :: cs => p c && k cs
  | cls _, _, [] => false
  | times p lo hi, k, cs =>
    (List.range (cs.length + 1)).any fun n => fits p lo hi cs n && k (cs.drop n)
  | seq a b, k, cs => a.run (b.run k) cs
  | opt a, k, cs => a.run k cs || k cs
  | notAhead a, k, cs => !a.run (fun _ => true) cs && k cs
  | atEnd, k, cs => cs.isEmpty && k cs

/-- `/^r/.test(s)`. -/
def test (r : Regex) (s : String) : Bool :=
  r.run (fun _ => true) s.toList

variable {a b : Regex} {p : Char → Bool} {lo : ℕ} {hi : Option ℕ} {k : List Char → Bool}
  {cs : List Char}

theorem run_cls : (cls p).run k cs = true ↔
    ∃ c rest, cs = c :: rest ∧ p c = true ∧ k rest = true := by
  cases cs with
  | nil => simp [run]
  | cons c cs =>
    rw [run, Bool.and_eq_true]
    constructor
    · rintro ⟨hp, hk⟩
      exact ⟨c, cs, rfl, hp, hk⟩
    · rintro ⟨c', rest, h, hp, hk⟩
      obtain ⟨rfl, rfl⟩ := List.cons.inj h
      exact ⟨hp, hk⟩

theorem run_times : (times p lo hi).run k cs = true ↔ ∃ ds rest, cs = ds ++ rest ∧
    lo ≤ ds.length ∧ (∀ m ∈ hi, ds.length ≤ m) ∧ (∀ c ∈ ds, p c = true) ∧ k rest = true := by
  simp only [run, fits, List.any_eq_true, List.mem_range, Bool.and_eq_true, decide_eq_true_eq,
    Option.all_eq_true, List.all_eq_true]
  constructor
  · rintro ⟨n, hn, ⟨⟨hlo, hhi⟩, hp⟩, hk⟩
    have hlen : (cs.take n).length = n := List.length_take_of_le (Nat.le_of_lt_succ hn)
    refine ⟨cs.take n, cs.drop n, (List.take_append_drop n cs).symm, ?_, fun m hm => ?_, hp, hk⟩
    · rwa [hlen]
    · rw [hlen]
      exact hhi m hm
  · rintro ⟨ds, rest, rfl, hlo, hhi, hp, hk⟩
    refine ⟨ds.length, ?_, ⟨⟨hlo, hhi⟩, ?_⟩, ?_⟩
    · rw [List.length_append]
      omega
    · rwa [List.take_left]
    · rwa [List.drop_left]

theorem run_seq : (seq a b).run k cs = a.run (b.run k) cs :=
  rfl

theorem run_opt : (opt a).run k cs = true ↔ a.run k cs = true ∨ k cs = true := by
  rw [run, Bool.or_eq_true]

theorem run_notAhead : (notAhead a).run k cs = true ↔
    ¬ a.run (fun _ => true) cs = true ∧ k cs = true := by
  rw [run, Bool.and_eq_true, Bool.not_eq_true', Bool.not_eq_true]

theorem run_atEnd : atEnd.run k cs = true ↔ cs = [] ∧ k cs = true := by
  rw [run, Bool.and_eq_true, List.isEmpty_iff]

end Regex
