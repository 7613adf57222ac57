import Kreav.Lib.Triples
import Kreav.Site

/-!
# Saving and reading a mini-site

An update of a mini-site fails and leaves the tables as they were, or it leaves of the user
exactly the rows of the body (`Replaced`) and of the other users what there was (`Others`).

The rows give the body back : the links and the products by their `sortOrder`, in whatever
order the database keeps them, and the handles by the lower case of their platforms, of which
each has one. So `getSite` after `updateSite` is the body without its empty handles
(`updateSite_getSite`).
-/

open Async Prog

namespace Kreav

/-! ## Statements -/

section Statements

variable {r : SiteRequest} {c : SiteChoice} {w w' : SiteDatabase} {t t' : SiteTables}

/-- A statement that is answered had its effect. -/
theorem siteExec_ok {a : r.Ans} (h : siteExec r c w = (.ok a, w')) :
    siteEffect r c w = (.ok a, w') := by
  unfold siteExec at h
  split at h
  · exact h
  · cases h
  · cases h

/-- A statement has its effect, or none. -/
theorem siteExec_world (r : SiteRequest) (c : SiteChoice) (w : SiteDatabase) :
    (siteExec r c w).2 = w ∨ (siteExec r c w).2 = (siteEffect r c w).2 := by
  unfold siteExec
  split
  · exact .inr rfl
  · exact .inl rfl
  · exact .inr rfl

theorem siteExec_none (h : c.fault = .none) : siteExec r c w = siteEffect r c w := by
  simp only [siteExec, h]

/-- The rows an answered statement leaves. -/
def SiteRequest.rows : SiteRequest → SiteRows → SiteRows
  | .userUpdate id data, t => { t with users := t.users.insert id data }
  | .socialLinkDeleteMany userId, t =>
    { t with socialLinks := t.socialLinks.filter (·.userId ≠ userId) }
  | .socialLinkCreateMany rows, t => { t with socialLinks := t.socialLinks ++ rows }
  | .customLinkDeleteMany userId, t =>
    { t with customLinks := t.customLinks.filter (·.userId ≠ userId) }
  | .customLinkCreateMany rows, t => { t with customLinks := t.customLinks ++ rows }
  | .featuredProductDeleteMany userId, t =>
    { t with featuredProducts := t.featuredProducts.filter (·.userId ≠ userId) }
  | .featuredProductCreateMany rows, t => { t with featuredProducts := t.featuredProducts ++ rows }
  | _, t => t

theorem updateUser_eq_ok {id : String} {data : Profile} (h : t.updateUser id data = .ok t') :
    t'.toSiteRows = { t.toSiteRows with users := t.users.insert id data } := by
  unfold SiteTables.updateUser at h
  split at h
  · cases h
  split at h
  · cases h
  · exact congrArg SiteTables.toSiteRows (Except.ok.inj h).symm

theorem createSocialLinks_eq_ok {rows : List SocialLink} (h : t.createSocialLinks rows = .ok t') :
    t'.toSiteRows = { t.toSiteRows with socialLinks := t.socialLinks ++ rows } := by
  unfold SiteTables.createSocialLinks at h
  split at h
  · cases h
  split at h
  · exact congrArg SiteTables.toSiteRows (Except.ok.inj h).symm
  · cases h

theorem createCustomLinks_eq_ok {rows : List CustomLink} (h : t.createCustomLinks rows = .ok t') :
    t'.toSiteRows = { t.toSiteRows with customLinks := t.customLinks ++ rows } := by
  unfold SiteTables.createCustomLinks at h
  split at h
  · cases h
  · exact congrArg SiteTables.toSiteRows (Except.ok.inj h).symm

theorem createFeaturedProducts_eq_ok {db : Database} {rows : List FeaturedProduct}
    (h : t.createFeaturedProducts db rows = .ok t') :
    t'.toSiteRows = { t.toSiteRows with featuredProducts := t.featuredProducts ++ rows } := by
  unfold SiteTables.createFeaturedProducts at h
  split at h
  · cases h
  split at h
  · exact congrArg SiteTables.toSiteRows (Except.ok.inj h).symm
  · cases h

theorem write_eq_ok {x : Except DbError SiteTables} {u : Unit} (h : w.write x = (.ok u, w')) :
    ∃ site, x = .ok site ∧ w' = { w with site } := by
  cases x with
  | error e => cases h
  | ok site => exact ⟨site, rfl, (Prod.mk.inj h).2.symm⟩

/-- A statement that is answered leaves its rows. -/
theorem siteEffect_ok {a : r.Ans} (h : siteEffect r c w = (.ok a, w')) :
    w'.db = w.db ∧ w'.site.toSiteRows = r.rows w.site.toSiteRows := by
  cases r with
  | userFindUnique id =>
    cases h
    exact ⟨rfl, rfl⟩
  | siteFindUnique id =>
    cases h
    exact ⟨rfl, rfl⟩
  | productFindFirst id creatorId =>
    cases h
    exact ⟨rfl, rfl⟩
  | userUpdate id data =>
    obtain ⟨t, ht, rfl⟩ := write_eq_ok h
    exact ⟨rfl, updateUser_eq_ok ht⟩
  | socialLinkDeleteMany userId =>
    cases h
    exact ⟨rfl, rfl⟩
  | socialLinkCreateMany rows =>
    obtain ⟨t, ht, rfl⟩ := write_eq_ok h
    exact ⟨rfl, createSocialLinks_eq_ok ht⟩
  | customLinkDeleteMany userId =>
    cases h
    exact ⟨rfl, rfl⟩
  | customLinkCreateMany rows =>
    obtain ⟨t, ht, rfl⟩ := write_eq_ok h
    exact ⟨rfl, createCustomLinks_eq_ok ht⟩
  | featuredProductDeleteMany userId =>
    cases h
    exact ⟨rfl, rfl⟩
  | featuredProductCreateMany rows =>
    obtain ⟨t, ht, rfl⟩ := write_eq_ok h
    exact ⟨rfl, createFeaturedProducts_eq_ok ht⟩

end Statements

/-! ## The transaction -/

namespace SiteService

variable {userId : String} {dto : SiteDto} {ch ch' : ℕ → SiteChoice} {w w' : SiteDatabase}

/-- The rows after an update of a mini-site. -/
def replaced (userId : String) (dto : SiteDto) (t : SiteRows) : SiteRows where
  users := t.users.insert userId (profile dto)
  socialLinks := t.socialLinks.filter (·.userId ≠ userId) ++ socialEntries userId dto
  customLinks := t.customLinks.filter (·.userId ≠ userId) ++ linkRows userId dto
  featuredProducts := t.featuredProducts.filter (·.userId ≠ userId) ++ featuredRows userId dto

/-- Checking the products changes nothing. -/
theorem relates_checkOwnership (userId : String) (ids : List String) :
    (checkOwnership userId ids).Relates siteStatements fun w w' => w' = w := by
  have hK := Relates.compositional siteStatements (R := fun w w' => w' = w) (fun _ => rfl)
    fun h h' => h'.trans h
  induction ids with
  | nil => exact hK.ret _
  | cons productId rest ih =>
    refine hK.bind (Relates.ask fun c w => (siteExec_world _ c w).elim id id) fun product => ?_
    split
    · exact hK.raise _
    · exact ih

/-- An answered statement, by itself. -/
theorem eval_statement_ok {r : SiteRequest} {a : r.Ans}
    (h : (awaitSite r).eval siteStatements ch w = (.ok a, ch', w')) :
    siteEffect r (ch 0) w = (.ok a, w') := by
  rw [eval_ask_eq] at h
  simp only [Prod.mk.injEq] at h
  exact siteExec_ok (Prod.ext h.1 h.2.2)

/-- Rows are created if there are any. Without rows, creating them would change nothing. -/
theorem eval_ifAny_ok {α : Type} [DecidableEq α] {rows : List α} {r : SiteRequest}
    {p : SiteStatements Unit} {u : Unit}
    (hp : ∀ {ch w ch' w'}, p.eval siteStatements ch w = (.ok u, ch', w') →
      w'.db = w.db ∧ w'.site.toSiteRows = r.rows w.site.toSiteRows)
    (hnil : rows = [] → ∀ t, r.rows t = t)
    (h : (ifAny rows p).eval siteStatements ch w = (.ok u, ch', w')) :
    w'.db = w.db ∧ w'.site.toSiteRows = r.rows w.site.toSiteRows := by
  unfold ifAny at h
  split at h
  · exact hp h
  · next hrows =>
    cases h
    exact ⟨rfl, (hnil (not_not.1 hrows) _).symm⟩

theorem eval_createFeatured_ok {u : Unit}
    (h : ((checkOwnership userId dto.featuredProductIds).bind fun _ =>
      awaitSite (.featuredProductCreateMany (featuredRows userId dto))).eval siteStatements ch w =
        (.ok u, ch', w')) :
    w'.db = w.db ∧ w'.site.toSiteRows =
      (SiteRequest.featuredProductCreateMany (featuredRows userId dto)).rows
        w.site.toSiteRows := by
  obtain ⟨_, _, w₁, hcheck, hcreate⟩ := eval_bind_eq_ok h
  have hw := relates_checkOwnership userId dto.featuredProductIds ch w
  rw [hcheck] at hw
  obtain rfl : w₁ = w := hw
  exact siteEffect_ok (eval_statement_ok hcreate)

/-- What the statements of the transaction leave, and what they read in the end. -/
theorem eval_replaceSite_ok {user : Option UserSite}
    (h : (replaceSite userId dto).eval siteStatements ch w = (.ok user, ch', w')) :
    (∃ c, user = w'.site.userSite userId c) ∧ w'.db = w.db ∧
      w'.site.toSiteRows = replaced userId dto w.site.toSiteRows := by
  obtain ⟨_, w₁, h₁, h⟩ := eval_ask_eq_ok h
  obtain ⟨_, w₂, h₂, h⟩ := eval_ask_eq_ok h
  obtain ⟨_, _, w₃, h₃, h⟩ := eval_bind_eq_ok h
  obtain ⟨_, w₄, h₄, h⟩ := eval_ask_eq_ok h
  obtain ⟨_, _, w₅, h₅, h⟩ := eval_bind_eq_ok h
  obtain ⟨_, w₆, h₆, h⟩ := eval_ask_eq_ok h
  obtain ⟨_, ch₇, w₇, h₇, h⟩ := eval_bind_eq_ok h
  obtain ⟨hdb₁, hrows₁⟩ := siteEffect_ok (siteExec_ok h₁)
  obtain ⟨hdb₂, hrows₂⟩ := siteEffect_ok (siteExec_ok h₂)
  obtain ⟨hdb₃, hrows₃⟩ := eval_ifAny_ok
    (r := .socialLinkCreateMany (socialEntries userId dto))
    (fun h => siteEffect_ok (eval_statement_ok h))
    (fun hnil t => by rw [hnil, SiteRequest.rows, List.append_nil]) h₃
  obtain ⟨hdb₄, hrows₄⟩ := siteEffect_ok (siteExec_ok h₄)
  obtain ⟨hdb₅, hrows₅⟩ := eval_ifAny_ok (r := .customLinkCreateMany (linkRows userId dto))
    (fun h => siteEffect_ok (eval_statement_ok h))
    (fun hnil t => by rw [linkRows, hnil, List.mapIdx_nil, SiteRequest.rows, List.append_nil]) h₅
  obtain ⟨hdb₆, hrows₆⟩ := siteEffect_ok (siteExec_ok h₆)
  obtain ⟨hdb₇, hrows₇⟩ := eval_ifAny_ok
    (r := .featuredProductCreateMany (featuredRows userId dto))
    eval_createFeatured_ok
    (fun hnil t => by
      rw [featuredRows, hnil, List.mapIdx_nil, SiteRequest.rows, List.append_nil]) h₇
  have hread : (Except.ok (w₇.site.userSite userId (ch₇ 0)), w₇) = (Except.ok user, w') :=
    eval_statement_ok h
  obtain ⟨huser, rfl⟩ := Prod.mk.inj hread
  refine ⟨⟨ch₇ 0, (Except.ok.inj huser).symm⟩, ?_, ?_⟩
  · rw [hdb₇, hdb₆, hdb₅, hdb₄, hdb₃, hdb₂, hdb₁]
  · rw [hrows₇, hrows₆, hrows₅, hrows₄, hrows₃, hrows₂, hrows₁]
    rfl

end SiteService

/-! ## Reading the rows -/

/-- Rows of one owner come back, and nothing else. -/
theorem filter_replaced {α : Type} (owner : α → String) {userId : String} {old rows : List α}
    (h : ∀ r ∈ rows, owner r = userId) :
    (old.filter (owner · ≠ userId) ++ rows).filter (owner · = userId) = rows := by
  have hold : (old.filter (owner · ≠ userId)).filter (owner · = userId) = [] := by
    simp
  have hrows : rows.filter (owner · = userId) = rows := by
    simpa using h
  rw [List.filter_append, hold, hrows, List.nil_append]

/-- Rows with increasing `sortOrder` come back in this order. -/
theorem orderBySort_eq {α : Type} {sortOrder : α → ℕ} {rows l : List α} (hperm : rows.Perm l)
    (hl : l.Pairwise fun a b => sortOrder a < sortOrder b) :
    SiteTables.orderBySort sortOrder rows = l := by
  have htotal : Std.Total fun a b => sortOrder a ≤ sortOrder b := ⟨fun a b => Nat.le_total _ _⟩
  have htrans : IsTrans α fun a b => sortOrder a ≤ sortOrder b := ⟨fun _ _ _ => Nat.le_trans⟩
  have hsorted := List.pairwise_insertionSort (fun a b => sortOrder a ≤ sortOrder b) rows
  have hkeys : (l.map sortOrder).Nodup := List.pairwise_map.2 (hl.imp Nat.ne_of_lt)
  refine List.Perm.eq_of_pairwise (fun a b ha hb hab hba => ?_) hsorted (hl.imp Nat.le_of_lt)
    ((List.perm_insertionSort _ rows).trans hperm)
  have hal : a ∈ l := hperm.mem_iff.1 ((List.mem_insertionSort _).1 ha)
  exact List.inj_on_of_nodup_map hkeys hal hb (Nat.le_antisymm hab hba)

/-- Rows that are numbered in order. -/
theorem pairwise_mapIdx {α β : Type} {f : ℕ → α → β} {sortOrder : β → ℕ}
    (hf : ∀ i a, sortOrder (f i a) = i) (l : List α) :
    (l.mapIdx f).Pairwise fun a b => sortOrder a < sortOrder b := by
  rw [List.pairwise_iff_getElem]
  intro i j hi hj hij
  rw [List.getElem_mapIdx, List.getElem_mapIdx, hf, hf]
  exact hij

theorem map_mapIdx {α β : Type} {f : ℕ → α → β} {g : β → α} (hg : ∀ i a, g (f i a) = a)
    (l : List α) : (l.mapIdx f).map g = l := by
  refine List.ext_getElem (by simp) fun i hi hi' => ?_
  rw [List.getElem_map, List.getElem_mapIdx, hg]

/-- What is stored of the socials : handles that are not empty. -/
def SocialsDto.stored (socials : SocialsDto) : SocialsDto where
  instagram := socials.instagram.filter (· ≠ "")
  x := socials.x.filter (· ≠ "")
  tiktok := socials.tiktok.filter (· ≠ "")
  youtube := socials.youtube.filter (· ≠ "")

/-- The body without its empty handles. -/
def SiteDto.stored (dto : SiteDto) : SiteDto :=
  { dto with socials := some (dto.socials.getD {}).stored }

namespace SiteService

variable {userId : String} {dto : SiteDto}

/-- The platforms come back in lower case. -/
theorem toLowerCase_toUpperCase {socials : SocialsDto} {e : String × Option String}
    (h : e ∈ entries socials) : toLowerCase (toUpperCase e.1) = e.1 := by
  have hall : ∀ p ∈ ["instagram", "x", "tiktok", "youtube"],
      toLowerCase (toUpperCase p) = p := by
    decide
  exact hall e.1 (List.mem_map_of_mem (f := Prod.fst) h)

theorem entries_inj {socials : SocialsDto} {e e' : String × Option String}
    (h : e ∈ entries socials) (h' : e' ∈ entries socials) (he : e.1 = e'.1) : e = e' := by
  have hkeys : ((entries socials).map (·.1)).Nodup := by
    simp only [entries, List.map_cons, List.map_nil]
    decide
  exact List.inj_on_of_nodup_map hkeys h h' he

/-- The rows of the social links : the entries with a handle. -/
theorem mem_socialEntries {sl : SocialLink} : sl ∈ socialEntries userId dto ↔
    ∃ e ∈ entries (dto.socials.getD {}), ∃ handle ∈ e.2.filter (· ≠ ""),
      ⟨userId, toUpperCase e.1, handle⟩ = sl := by
  cases hs : dto.socials with
  | none => simp [socialEntries, entries, hs]
  | some socials =>
    simp only [socialEntries, hs, Option.elim_some, Option.getD_some, List.mem_filterMap,
      Option.map_eq_some_iff, Option.mem_def]

/-- The handle of a platform comes back, if it is not empty. -/
theorem handleOf_socialEntries {rows : List SocialLink}
    (hperm : rows.Perm (socialEntries userId dto)) {e : String × Option String}
    (he : e ∈ entries (dto.socials.getD {})) :
    handleOf e.1 rows = e.2.filter (· ≠ "") := by
  -- a row of the platform has the handle of the entry
  have hrow : ∀ sl ∈ rows.reverse, toLowerCase sl.platform = e.1 →
      some sl.handle = e.2.filter (· ≠ "") := by
    intro sl hsl hp
    rw [List.mem_reverse, hperm.mem_iff, mem_socialEntries] at hsl
    obtain ⟨e', he', handle, hhandle, rfl⟩ := hsl
    rw [toLowerCase_toUpperCase he'] at hp
    rw [← entries_inj he' he hp]
    exact (Option.mem_def.1 hhandle).symm
  unfold handleOf
  cases hfind : rows.reverse.find? fun sl => toLowerCase sl.platform = e.1 with
  | some sl =>
    have hp := List.find?_some hfind
    exact hrow sl (List.mem_of_find?_eq_some hfind) (of_decide_eq_true hp)
  | none =>
    rw [List.find?_eq_none] at hfind
    cases hhandle : e.2.filter (· ≠ "") with
    | none => rfl
    | some handle =>
      have hmem : ⟨userId, toUpperCase e.1, handle⟩ ∈ rows :=
        hperm.mem_iff.2 (mem_socialEntries.2 ⟨e, he, handle, hhandle, rfl⟩)
      have hne := hfind _ (List.mem_reverse.2 hmem)
      simp only [toLowerCase_toUpperCase he, decide_true, not_true_eq_false] at hne

/-- The rows of an update give the body back. -/
theorem toSiteDto_userSite {t t' : SiteTables}
    (h : t'.toSiteRows = replaced userId dto t.toSiteRows) (c : SiteChoice) :
    (t'.userSite userId c).map toSiteDto = some dto.stored := by
  have husers : t'.users.lookup userId = some (profile dto) := by
    rw [h]
    exact AList.lookup_insert _
  have hsocial : t'.socialLinks.filter (·.userId = userId) = socialEntries userId dto := by
    rw [h]
    refine filter_replaced _ fun r hr => ?_
    obtain ⟨_, _, _, _, rfl⟩ := mem_socialEntries.1 hr
    rfl
  have hlinks : t'.customLinks.filter (·.userId = userId) = linkRows userId dto := by
    rw [h]
    refine filter_replaced _ fun r hr => ?_
    obtain ⟨_, _, rfl⟩ := List.mem_mapIdx.1 hr
    rfl
  have hfeatured : t'.featuredProducts.filter (·.userId = userId) = featuredRows userId dto := by
    rw [h]
    refine filter_replaced _ fun r hr => ?_
    obtain ⟨_, _, rfl⟩ := List.mem_mapIdx.1 hr
    rfl
  have hlinksOrder : SiteTables.orderBySort (·.sortOrder)
      (reorder c.linkOrder (linkRows userId dto)) = linkRows userId dto :=
    orderBySort_eq (reorder_perm _ _) (pairwise_mapIdx (fun _ _ => rfl) _)
  have hfeaturedOrder : SiteTables.orderBySort (·.sortOrder)
      (reorder c.featuredOrder (featuredRows userId dto)) = featuredRows userId dto :=
    orderBySort_eq (reorder_perm _ _) (pairwise_mapIdx (fun _ _ => rfl) _)
  have hhandle : ∀ e ∈ entries (dto.socials.getD {}),
      handleOf e.1 (reorder c.socialOrder (socialEntries userId dto)) = e.2.filter (· ≠ "") :=
    fun e he => handleOf_socialEntries (reorder_perm _ _) he
  simp only [entries, List.forall_mem_cons] at hhandle
  obtain ⟨hinstagram, hx, htiktok, hyoutube, -⟩ := hhandle
  rw [SiteTables.userSite, husers, hsocial, hlinks, hfeatured, hlinksOrder, hfeaturedOrder]
  simp only [Option.map_some, toSiteDto, SiteDto.stored, SocialsDto.stored, profile,
    Option.getD_some, hinstagram, hx, htiktok, hyoutube]
  rw [linkRows, featuredRows, map_mapIdx fun _ _ => rfl, map_mapIdx fun _ _ => rfl]

/-! ## The calls -/

/-- A read outside of a transaction. -/
theorem eval_read {r : SiteRequest} (hr : ∀ c w, (siteEffect r c w).2 = w) (ch : ℕ → SiteChoice)
    (w : SiteDatabase) : (awaitSite r).statements.eval siteMachine ch (.closed w) =
      ((siteExec r (ch 0) w).1, fun n => ch (n + 1), .closed w) := by
  have hw : (siteExec r (ch 0) w).2 = w := by
    rcases siteExec_world r (ch 0) w with h | h
    · exact h
    · exact h.trans (hr _ _)
  rw [siteMachine, eval_statements, eval_ask_eq]
  refine Prod.ext rfl (Prod.ext rfl ?_)
  exact congrArg Staged.closed hw

/-- An update fails and changes nothing, or answers with the body without its empty handles
and leaves its rows. -/
theorem eval_updateSite (userId : String) (dto : SiteDto) (ch : ℕ → SiteChoice)
    (w : SiteDatabase) :
    (∃ e ch', (updateSite userId dto).eval siteMachine ch (.closed w) =
        (.error e, ch', .closed w)) ∨
      ∃ ch' w', (updateSite userId dto).eval siteMachine ch (.closed w) =
          (.ok dto.stored, ch', .closed w') ∧
        w'.db = w.db ∧ w'.site.toSiteRows = replaced userId dto w.site.toSiteRows := by
  have hread := eval_read (r := .userFindUnique userId) (fun _ _ => rfl) ch w
  cases hx : (siteExec (.userFindUnique userId) (ch 0) w).1 with
  | error e =>
    rw [hx] at hread
    exact .inl ⟨e, _, eval_bind_error hread⟩
  | ok user =>
    rw [hx] at hread
    cases user with
    | false => exact .inl ⟨userNotFound userId, _, eval_bind_ok hread⟩
    | true =>
      rcases eval_transaction siteStatements (fun c => c.fault ≠ .none) (.database .unavailable)
          (replaceSite userId dto) (fun n => ch (n + 1)) w with
        ⟨e, ch', htx⟩ | ⟨user, ch₁, ch', w', hbody, htx⟩
      · exact .inl ⟨e, ch', (eval_bind_ok hread).trans (eval_bind_error htx)⟩
      · obtain ⟨⟨c, rfl⟩, hdb, hrows⟩ := eval_replaceSite_ok hbody
        have hdto := toSiteDto_userSite hrows c
        cases huser : w'.site.userSite userId c with
        | none =>
          rw [huser] at hdto
          cases hdto
        | some updated =>
          rw [huser, Option.map_some, Option.some_inj] at hdto
          rw [huser] at htx
          refine .inr ⟨ch', w', ?_, hdb, hrows⟩
          rw [← hdto]
          exact (eval_bind_ok hread).trans (eval_bind_ok htx)

/-- A read of the rows that an update left. -/
theorem eval_getSite {userId : String} {dto : SiteDto} {t : SiteTables} {w : SiteDatabase}
    (h : w.site.toSiteRows = replaced userId dto t.toSiteRows) {ch : ℕ → SiteChoice}
    (hch : (ch 0).fault = .none) :
    ((getSite userId).eval siteMachine ch (.closed w)).1 = .ok dto.stored := by
  have hread := eval_read (r := .siteFindUnique userId) (fun _ _ => rfl) ch w
  rw [siteExec_none hch] at hread
  have hdto := toSiteDto_userSite h (ch 0)
  cases huser : w.site.userSite userId (ch 0) with
  | none =>
    rw [huser] at hdto
    cases hdto
  | some user =>
    rw [huser, Option.map_some, Option.some_inj] at hdto
    have hok : (awaitSite (.siteFindUnique userId)).statements.eval siteMachine ch (.closed w) =
        (.ok (some user), fun n => ch (n + 1), .closed w) := by
      rw [hread, siteEffect, huser]
    rw [getSite, bind_eq, eval_bind_ok hok, ← hdto]
    rfl

/-- An update fails and changes nothing, or a read after it answers with the body, without its
empty handles. -/
theorem updateSite_getSite (userId : String) (dto : SiteDto) (w : SiteDatabase)
    (ch ch' : ℕ → SiteChoice) (hch' : (ch' 0).fault = .none) :
    (∃ e rest, (updateSite userId dto).eval siteMachine ch (.closed w) =
        (.error e, rest, .closed w)) ∨
      ∃ rest w', (updateSite userId dto).eval siteMachine ch (.closed w) =
          (.ok dto.stored, rest, .closed w') ∧
        ((getSite userId).eval siteMachine ch' (.closed w')).1 = .ok dto.stored := by
  rcases eval_updateSite userId dto ch w with h | ⟨rest, w', h, -, hrows⟩
  · exact .inl h
  · exact .inr ⟨rest, w', h, eval_getSite hrows hch'⟩

/-- An update that succeeds, and the read after it. -/
theorem updateSite_getSite_demo :
    ∃ rest w', (updateSite "alice" demoSiteDto).eval siteMachine (fun _ => {})
        (.closed demoSite) = (.ok demoSiteDto.stored, rest, .closed w') ∧
      ((getSite "alice").eval siteMachine (fun _ => {}) (.closed w')).1 =
        .ok demoSiteDto.stored := by
  rcases updateSite_getSite "alice" demoSiteDto demoSite (fun _ => {}) (fun _ => {}) rfl with
    ⟨e, rest, h⟩ | h
  · have hok : ((updateSite "alice" demoSiteDto).eval siteMachine (fun _ => {})
        (.closed demoSite)).1.isOk = true := by
      decide
    rw [h] at hok
    cases hok
  · exact h

end SiteService

end Kreav
