import Kreav.Lib.Substitution

/-!
# A fragment of HTML

Texts, and tags with attributes in double quotes. `step` is the tokenizer on one character, in
the states that the standard gives it, and `none` where the fragment ends (comments, unquoted
values, names in upper case, an attribute given twice). It reads no newline as another, and a
character that it need not treat is passed on.

A document alternates between tags and texts. If no text holds a `<` and no value a quote, the
tokens of a document are its tags and the characters of its texts, with the references in
texts and values decoded (`tokenize_render`).
-/

open Substitution

namespace Html

/-- A start tag with its attributes, or an end tag. -/
inductive Tag
  | opening (name : String) (attributes : List (String × String))
  | closing (name : String)
  deriving DecidableEq

/-- A character of the text, or a tag. -/
inductive Token
  | character (c : Char)
  | tag (t : Tag)
  deriving DecidableEq

/-- The characters of a text. -/
def characters (s : String) : List Token :=
  s.toList.map .character

/-- What the tokenizer has collected since the last token. -/
inductive State
  | data (raw : List Char)
  | tagOpen
  | closingName (name : List Char)
  | tagName (name : List Char)
  | beforeAttribute (name : String) (attributes : List (String × String))
  | attributeName (name : String) (attributes : List (String × String)) (key : List Char)
  | beforeValue (name : String) (attributes : List (String × String)) (key : String)
  | value (name : String) (attributes : List (String × String)) (key : String) (raw : List Char)
  | afterValue (name : String) (attributes : List (String × String))
  deriving DecidableEq

/-- The characters of the names of tags and attributes. -/
def isName (c : Char) : Bool :=
  c.isLower || c.isDigit

variable (refs : References Char)

/-- The text with its references read. -/
def decodeText (s : String) : String :=
  String.ofList (decode '&' refs s.toList)

/-- The next state and the tokens that are emitted. -/
def step : State → Char → Option (State × List Token)
  | .data raw, c =>
    if c = '<' then some (.tagOpen, characters (decodeText refs (String.ofList raw)))
    else some (.data (raw ++ [c]), [])
  | .tagOpen, c =>
    if c = '/' then some (.closingName [], [])
    else if c.isLower then some (.tagName [c], [])
    else none
  | .closingName [], c =>
    if c.isLower then some (.closingName [c], []) else none
  | .closingName name, c =>
    if isName c then some (.closingName (name ++ [c]), [])
    else if c = '>' then some (.data [], [.tag (.closing (String.ofList name))])
    else none
  | .tagName name, c =>
    if isName c then some (.tagName (name ++ [c]), [])
    else if c = ' ' then some (.beforeAttribute (String.ofList name) [], [])
    else if c = '>' then some (.data [], [.tag (.opening (String.ofList name) [])])
    else none
  | .beforeAttribute name as, c =>
    if c.isLower then some (.attributeName name as [c], []) else none
  | .attributeName name as key, c =>
    if isName c then some (.attributeName name as (key ++ [c]), [])
    else if c = '=' ∧ String.ofList key ∉ as.map Prod.fst then
      some (.beforeValue name as (String.ofList key), [])
    else none
  | .beforeValue name as key, c =>
    if c = '"' then some (.value name as key [], []) else none
  | .value name as key raw, c =>
    if c = '"' then
      some (.afterValue name (as ++ [(key, decodeText refs (String.ofList raw))]), [])
    else some (.value name as key (raw ++ [c]), [])
  | .afterValue name as, c =>
    if c = ' ' then some (.beforeAttribute name as, [])
    else if c = '>' then some (.data [], [.tag (.opening name as)])
    else none

/-- The tokens of a text, read from the state. The text ends between the tags. -/
def run : State → List Char → Option (List Token)
  | .data raw, [] => some (characters (decodeText refs (String.ofList raw)))
  | _, [] => none
  | σ, c :: s => (step refs σ c).bind fun p => (run p.1 s).map (p.2 ++ ·)

/-- The tokens of a text, `none` if it ends within a tag. -/
def tokenize (s : String) : Option (List Token) :=
  run refs (.data []) s.toList

/-! ## Documents -/

namespace Tag

/-- The attributes as they are written. -/
def renderAttributes (as : List (String × String)) : String :=
  String.join (as.map fun a => " " ++ a.1 ++ "=\"" ++ a.2 ++ "\"")

/-- A tag as it is written. -/
def render : Tag → String
  | opening name as => "<" ++ name ++ renderAttributes as ++ ">"
  | closing name => "</" ++ name ++ ">"

/-- The tag with the references in its values read. -/
def decode : Tag → Tag
  | opening name as => opening name (as.map fun a => (a.1, decodeText refs a.2))
  | closing name => closing name

/-- The name and the names of the attributes. -/
def outline : Tag → String × Option (List String)
  | opening name as => (name, some (as.map Prod.fst))
  | closing name => (name, none)

end Tag

/-- A letter, and then letters or digits. -/
def IsName (name : String) : Prop :=
  ∃ c cs, name.toList = c :: cs ∧ c.isLower = true ∧ ∀ d ∈ cs, isName d = true

instance (name : String) : Decidable (IsName name) :=
  decidable_of_iff
    ((name.toList.head?.any Char.isLower && name.toList.tail.all isName) = true) <| by
    unfold IsName
    cases name.toList <;> simp

/-- The names are names, each attribute is there once, and no value has a quote. -/
def Tag.WellFormed : Tag → Prop
  | opening name as =>
    IsName name ∧ (as.map Prod.fst).Nodup ∧ ∀ a ∈ as, IsName a.1 ∧ '"' ∉ a.2.toList
  | closing name => IsName name

/-- A text, and tags with the text that follows each. -/
structure Document where
  lead : String
  body : List (Tag × String)

namespace Document

/-- A tag as it is written. -/
def render (d : Document) : String :=
  d.lead ++ String.join (d.body.map fun p => p.1.render ++ p.2)

/-- The document with the references in texts and values read. -/
def decode (d : Document) : Document where
  lead := decodeText refs d.lead
  body := d.body.map fun p => (p.1.decode refs, decodeText refs p.2)

/-- The tokens of a document. -/
def tokens (d : Document) : List Token :=
  characters d.lead ++ d.body.flatMap fun p => .tag p.1 :: characters p.2

/-- The tags are well formed, and the texts have no tags in them. -/
structure WellFormed (d : Document) : Prop where
  lead : '<' ∉ d.lead.toList
  body : ∀ p ∈ d.body, p.1.WellFormed ∧ '<' ∉ p.2.toList

end Document

/-- The tags among the tokens, without the values. -/
def outline (ts : List Token) : List (String × Option (List String)) :=
  ts.filterMap fun
    | .character _ => none
    | .tag t => some t.outline

theorem outline_characters (s : String) : outline (characters s) = [] := by
  simp [outline, characters, List.filterMap_map]

theorem outline_tokens (d : Document) : outline d.tokens = d.body.map fun p => p.1.outline := by
  obtain ⟨lead, body⟩ := d
  have happ (ts us : List Token) : outline (ts ++ us) = outline ts ++ outline us :=
    List.filterMap_append
  rw [Document.tokens, happ, outline_characters, List.nil_append]
  induction body with
  | nil => rfl
  | cons p body ih =>
    rw [List.flatMap_cons, happ, ih, List.map_cons, ← List.singleton_append, happ,
      outline_characters]
    rfl

/-! ## The tokens of a document -/

variable {refs} {σ τ : State} {c : Char} {s t raw : List Char} {name key : String}
  {as bs : List (String × String)}

theorem step_text (h : c ≠ '<') :
    step refs (.data raw) c = some (.data (raw ++ [c]), []) :=
  if_neg h

theorem step_tagOpen (h : c.isLower = true) :
    step refs .tagOpen c = some (.tagName [c], []) := by
  have hslash : c ≠ '/' := by
    rintro rfl
    revert h
    decide
  rw [step, if_neg hslash, if_pos h]

theorem step_closingName (hraw : raw ≠ []) (h : isName c = true) :
    step refs (.closingName raw) c = some (.closingName (raw ++ [c]), []) := by
  obtain ⟨b, bs, rfl⟩ := List.exists_cons_of_ne_nil hraw
  exact if_pos h

theorem step_tagName (h : isName c = true) :
    step refs (.tagName raw) c = some (.tagName (raw ++ [c]), []) :=
  if_pos h

theorem step_beforeAttribute (h : c.isLower = true) :
    step refs (.beforeAttribute name as) c = some (.attributeName name as [c], []) :=
  if_pos h

theorem step_attributeName (h : isName c = true) :
    step refs (.attributeName name as raw) c = some (.attributeName name as (raw ++ [c]), []) :=
  if_pos h

theorem step_equals (h : String.ofList raw ∉ as.map Prod.fst) :
    step refs (.attributeName name as raw) '=' =
      some (.beforeValue name as (String.ofList raw), []) := by
  rw [step, if_neg (by decide), if_pos ⟨rfl, h⟩]

theorem step_value (h : c ≠ '"') :
    step refs (.value name as key raw) c = some (.value name as key (raw ++ [c]), []) :=
  if_neg h

theorem run_cons {out : List Token} (h : step refs σ c = some (τ, out)) :
    run refs σ (c :: s) = (run refs τ s).map (out ++ ·) := by
  rw [run, h]
  rfl

/-- A step without output. -/
theorem run_silent (h : step refs σ c = some (τ, [])) :
    run refs σ (c :: s) = run refs τ s := by
  rw [run_cons h]
  exact Option.map_id_apply

/-- A text is collected up to the next tag. -/
theorem run_text (h : '<' ∉ s) :
    run refs (.data raw) (s ++ t) = run refs (.data (raw ++ s)) t := by
  induction s generalizing raw with
  | nil => rw [List.append_nil, List.nil_append]
  | cons c s ih =>
    rw [List.cons_append, run_silent (step_text (List.ne_of_not_mem_cons h).symm),
      ih (List.not_mem_of_not_mem_cons h), List.append_assoc, List.singleton_append]

/-- A value is collected up to the closing quote. -/
theorem run_value (h : '"' ∉ s) :
    run refs (.value name as key raw) (s ++ '"' :: t) =
      run refs (.afterValue name (as ++ [(key, decodeText refs (String.ofList (raw ++ s)))]))
        t := by
  induction s generalizing raw with
  | nil =>
    rw [List.append_nil, List.nil_append]
    exact run_silent rfl
  | cons c s ih =>
    rw [List.cons_append, run_silent (step_value (List.ne_of_not_mem_cons h).symm),
      ih (List.not_mem_of_not_mem_cons h), List.append_assoc, List.singleton_append]

/-- A name is collected by a state that stays itself on its characters. -/
theorem run_name (collect : List Char → State)
    (hc : ∀ raw c, raw ≠ [] → isName c = true →
      step refs (collect raw) c = some (collect (raw ++ [c]), []))
    (hraw : raw ≠ []) (hs : ∀ c ∈ s, isName c = true) :
    run refs (collect raw) (s ++ t) = run refs (collect (raw ++ s)) t := by
  induction s generalizing raw with
  | nil => rw [List.append_nil, List.nil_append]
  | cons c s ih =>
    rw [List.cons_append, run_silent (hc raw c hraw (hs c List.mem_cons_self)),
      ih (by simp) (fun d hd => hs d (List.mem_cons_of_mem c hd)), List.append_assoc,
      List.singleton_append]

theorem run_attribute {v : String} (hkey : IsName key) (hv : '"' ∉ v.toList)
    (hnew : key ∉ as.map Prod.fst) :
    run refs (.beforeAttribute name as) (key.toList ++ '=' :: '"' :: (v.toList ++ '"' :: t)) =
      run refs (.afterValue name (as ++ [(key, decodeText refs v)])) t := by
  obtain ⟨c, cs, hlist, hc, hcs⟩ := hkey
  obtain rfl : key = String.ofList (c :: cs) := by
    rw [← hlist, String.ofList_toList]
  rw [hlist]
  calc run refs (.beforeAttribute name as) (c :: cs ++ '=' :: '"' :: (v.toList ++ '"' :: t))
      = run refs (.attributeName name as [c]) (cs ++ '=' :: '"' :: (v.toList ++ '"' :: t)) :=
        run_silent (step_beforeAttribute hc)
    _ = run refs (.attributeName name as (c :: cs)) ('=' :: '"' :: (v.toList ++ '"' :: t)) :=
        run_name (.attributeName name as) (fun _ _ _ => step_attributeName) (by simp) hcs
    _ = run refs (.beforeValue name as (String.ofList (c :: cs))) ('"' :: (v.toList ++ '"' :: t)) :=
        run_silent (step_equals hnew)
    _ = run refs (.value name as (String.ofList (c :: cs)) []) (v.toList ++ '"' :: t) :=
        run_silent rfl
    _ = _ := by rw [run_value hv, List.nil_append, String.ofList_toList]

theorem renderAttributes_cons (b : String × String) :
    (Tag.renderAttributes (b :: bs)).toList =
      ' ' :: (b.1.toList ++ '=' :: '"' ::
        (b.2.toList ++ '"' :: (Tag.renderAttributes bs).toList)) := by
  simp [Tag.renderAttributes]

/-- From a state that takes a blank for the next attribute and `>` for the end. -/
theorem run_attributes (hblank : step refs σ ' ' = some (.beforeAttribute name as, []))
    (hend : step refs σ '>' = some (.data [], [.tag (.opening name as)]))
    (hnew : ((as ++ bs).map Prod.fst).Nodup)
    (hbs : ∀ b ∈ bs, IsName b.1 ∧ '"' ∉ b.2.toList) :
    run refs σ ((Tag.renderAttributes bs).toList ++ '>' :: t) =
      (run refs (.data []) t).map
        (.tag (.opening name (as ++ bs.map fun b => (b.1, decodeText refs b.2))) :: ·) := by
  induction bs generalizing σ as with
  | nil =>
    rw [List.map_nil, List.append_nil]
    exact run_cons hend
  | cons b bs ih =>
    obtain ⟨key, v⟩ := b
    obtain ⟨hkey, hv⟩ := hbs _ List.mem_cons_self
    have hfresh : key ∉ as.map Prod.fst := by
      rw [List.map_append, List.nodup_append] at hnew
      exact fun hmem => hnew.2.2 key hmem key (by simp) rfl
    have hread : run refs σ ((Tag.renderAttributes ((key, v) :: bs)).toList ++ '>' :: t) =
        run refs (.afterValue name (as ++ [(key, decodeText refs v)]))
          ((Tag.renderAttributes bs).toList ++ '>' :: t) := by
      rw [← run_attribute hkey hv hfresh, ← run_silent hblank, renderAttributes_cons]
      simp
    rw [hread, ih rfl rfl (by simpa using hnew)
      (fun b hb => hbs b (List.mem_cons_of_mem _ hb))]
    simp

theorem run_tag {g : Tag} (h : g.WellFormed) :
    run refs (.data raw) (g.render.toList ++ t) =
      (run refs (.data []) t).map
        (characters (decodeText refs (String.ofList raw)) ++ .tag (g.decode refs) :: ·) := by
  have hopen : step refs (.data raw) '<' =
      some (.tagOpen, characters (decodeText refs (String.ofList raw))) := rfl
  cases g with
  | closing name =>
    obtain ⟨c, cs, hlist, hc, hcs⟩ := h
    have hname : String.ofList (c :: cs) = name := by
      rw [← hlist, String.ofList_toList]
    have hread : run refs .tagOpen ('/' :: (name.toList ++ '>' :: t)) =
        (run refs (.data []) t).map (.tag (.closing name) :: ·) := by
      rw [hlist, ← hname]
      calc run refs .tagOpen ('/' :: (c :: cs ++ '>' :: t))
          = run refs (.closingName []) (c :: (cs ++ '>' :: t)) := run_silent rfl
        _ = run refs (.closingName [c]) (cs ++ '>' :: t) := run_silent (if_pos hc)
        _ = run refs (.closingName (c :: cs)) ('>' :: t) :=
            run_name .closingName (fun _ _ => step_closingName) (by simp) hcs
        _ = _ := run_cons rfl
    simp [Tag.render, run_cons hopen, hread, Tag.decode, Function.comp_def]
  | opening name as =>
    obtain ⟨⟨c, cs, hlist, hc, hcs⟩, hnodup, has⟩ := h
    have hname : String.ofList (c :: cs) = name := by
      rw [← hlist, String.ofList_toList]
    have hread : run refs .tagOpen (name.toList ++ ((Tag.renderAttributes as).toList ++ '>' :: t)) =
        (run refs (.data []) t).map (.tag ((Tag.opening name as).decode refs) :: ·) := by
      rw [hlist, ← hname]
      calc run refs .tagOpen (c :: cs ++ ((Tag.renderAttributes as).toList ++ '>' :: t))
          = run refs (.tagName [c]) (cs ++ ((Tag.renderAttributes as).toList ++ '>' :: t)) :=
            run_silent (step_tagOpen hc)
        _ = run refs (.tagName (c :: cs)) ((Tag.renderAttributes as).toList ++ '>' :: t) :=
            run_name .tagName (fun _ _ _ => step_tagName) (by simp) hcs
        _ = _ := run_attributes rfl rfl (by simpa using hnodup) has
    simp [Tag.render, run_cons hopen, hread, Function.comp_def]

theorem run_body {ps : List (Tag × String)}
    (h : ∀ p ∈ ps, p.1.WellFormed ∧ '<' ∉ p.2.toList) :
    run refs (.data raw) (String.join (ps.map fun p => p.1.render ++ p.2)).toList =
      some (characters (decodeText refs (String.ofList raw)) ++ ps.flatMap fun p =>
        .tag (p.1.decode refs) :: characters (decodeText refs p.2)) := by
  induction ps generalizing raw with
  | nil => simp [run]
  | cons p ps ih =>
    obtain ⟨hg, hs⟩ := h _ List.mem_cons_self
    have hjoin : (String.join ((p :: ps).map fun p => p.1.render ++ p.2)).toList =
        p.1.render.toList ++ (p.2.toList ++
          (String.join (ps.map fun p => p.1.render ++ p.2)).toList) := by
      simp
    rw [hjoin, run_tag hg, run_text hs, List.nil_append,
      ih fun q hq => h q (List.mem_cons_of_mem _ hq), String.ofList_toList]
    simp

theorem tokenize_render {d : Document} (h : d.WellFormed) :
    tokenize refs d.render = some (d.decode refs).tokens := by
  rw [tokenize, Document.render, String.toList_append, run_text h.lead, List.nil_append,
    run_body h.body, String.ofList_toList]
  simp [Document.tokens, Document.decode, List.flatMap_map]

end Html
