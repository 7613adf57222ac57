import Kreav.Ownership
import Kreav.Profiles

/-!
# What a public page shows

A creator saves its mini-site and leaves it and its profile alone. Whatever other users save,
change and ask in the meantime, and whatever happens to the products, every public page of its
username that is put together from then on is the page of the saved body (`site_published`).
The products on it are the featured ones that were active at some time since, and only if none
was, the newest ones.

`Saved` says of the tables what the update left of the creator's rows. The steps of others keep
it, since these rows are not theirs (`SameRows`).
-/

open Async Prog

namespace Kreav

namespace PublicPages

/-! ## Rows of one user -/

/-- The rows of the user `u` are the same. -/
structure SameRows (u : String) (t t' : SiteRows) : Prop where
  user : t'.users.lookup u = t.users.lookup u
  socialLinks : t'.socialLinks.filter (·.userId = u) = t.socialLinks.filter (·.userId = u)
  customLinks : t'.customLinks.filter (·.userId = u) = t.customLinks.filter (·.userId = u)
  featuredProducts : t'.featuredProducts.filter (·.userId = u) =
    t.featuredProducts.filter (·.userId = u)

variable {u A : String} {t t' : SiteTables}

theorem SameRows.userSite (h : SameRows u t.toSiteRows t'.toSiteRows) (c : SiteChoice) :
    t'.userSite u c = t.userSite u c := by
  rw [SiteTables.userSite, SiteTables.userSite, h.user, h.socialLinks, h.customLinks,
    h.featuredProducts]

/-- Rows that are the same but for those of `A` are the same for `u`. -/
theorem filter_eq_of_others {α : Type} {owner : α → String} {l l' : List α} (hne : u ≠ A)
    (h : l'.filter (owner · ≠ A) = l.filter (owner · ≠ A)) :
    l'.filter (owner · = u) = l.filter (owner · = u) := by
  have hsub : ∀ l : List α, (l.filter (owner · ≠ A)).filter (owner · = u) =
      l.filter (owner · = u) := by
    intro l
    rw [List.filter_filter]
    refine List.filter_congr fun r _ => ?_
    by_cases hr : owner r = u
    · simp [hr, hne]
    · simp [hr]
  rw [← hsub l', h, hsub]

theorem sameRows_replaced (hne : u ≠ A) (dto : SiteDto) (t : SiteRows) :
    SameRows u t (SiteService.replaced A dto t) := by
  have hkept := Ownership.siteKept_replaced (A := A) dto t
  exact ⟨AList.lookup_insert_ne hne, filter_eq_of_others hne hkept.socialLinks,
    filter_eq_of_others hne hkept.customLinks, filter_eq_of_others hne hkept.featuredProducts⟩

theorem sameRows_updateUser (hne : u ≠ A) {data : Profile} (h : t.updateUser A data = .ok t') :
    SameRows u t.toSiteRows t'.toSiteRows := by
  rw [updateUser_eq_ok h]
  exact ⟨AList.lookup_insert_ne hne, rfl, rfl, rfl⟩

theorem sameRows_createUser (hne : u ≠ A) (name : String) (t : SiteTables) :
    SameRows u t.toSiteRows (t.createUser A name).toSiteRows := by
  unfold SiteTables.createUser
  split
  · exact ⟨rfl, rfl, rfl, rfl⟩
  · exact ⟨AList.lookup_insert_ne hne, rfl, rfl, rfl⟩

/-- An update of a mini-site commits nothing, or the rows of its body. -/
theorem updateSite_site (userId : String) (dto : SiteDto) (outcomes : ℕ → SiteChoice)
    (w : UserWorld) :
    (∃ e, w.updateSite userId dto outcomes = (.error e, w.site)) ∨ ∃ site : SiteTables,
      w.updateSite userId dto outcomes = (.ok dto.stored, site) ∧
        site.toSiteRows = SiteService.replaced userId dto w.site.toSiteRows := by
  rcases SiteService.eval_updateSite userId dto outcomes w.siteDatabase with
    ⟨e, ch, h⟩ | ⟨ch, w', h, -, hrows⟩
  · refine .inl ⟨e, ?_⟩
    simp only [UserWorld.updateSite, h]
    rfl
  · refine .inr ⟨w'.site, ?_, hrows⟩
    simp only [UserWorld.updateSite, h]
    rfl

/-! ## The tables since the update -/

/-- The tables have what the update of `u` left of its rows. -/
structure Saved (u : String) (dto : SiteDto) (country : Option String) (w : UserWorld) :
    Prop where
  user : w.site.users.lookup u = some (SiteService.profile dto)
  site : ∀ c, (w.site.userSite u c).map SiteService.toSiteDto = some dto.stored
  country : (w.accounts u).country = country
  catalog : w.catalog ∈ w.catalogs

/-- Requests that leave the row of `u` alone. -/
def SparesUser (u : String) (_ : UserWorld) : UserRequest → UserChoice → Prop
  | .userUpdate id _, _ => u ≠ id
  | _, _ => True

/-- Steps of the outside that leave the mini-site of `u` alone. -/
def SparesSite (u : String) (_ : UserWorld) : UserStep → Prop
  | .updateSite userId _ _ => u ≠ userId
  | _ => True

instance (u : String) (w : UserWorld) (r : UserRequest) (c : UserChoice) :
    Decidable (SparesUser u w r c) :=
  match r with
  | .userUpdate id _ => inferInstanceAs (Decidable (u ≠ id))
  | .userFindUnique _ => isTrue trivial
  | .usernameFindUnique _ => isTrue trivial
  | .publicFindUnique _ => isTrue trivial
  | .productFindMany _ => isTrue trivial

instance (u : String) (w : UserWorld) (e : UserStep) : Decidable (SparesSite u w e) :=
  match e with
  | .updateSite userId _ _ => inferInstanceAs (Decidable (u ≠ userId))
  | .register _ _ _ => isTrue trivial
  | .catalog _ => isTrue trivial

variable {dto : SiteDto} {country : Option String} {w w' : UserWorld}

theorem Saved.sameRows (h : Saved u dto country w)
    (hsite : SameRows u w.site.toSiteRows w'.site.toSiteRows)
    (haccount : w'.accounts u = w.accounts u) (hcatalog : w'.catalog ∈ w'.catalogs) :
    Saved u dto country w' where
  user := hsite.user.trans h.user
  site c := by
    rw [hsite.userSite]
    exact h.site c
  country := by
    rw [haccount]
    exact h.country
  catalog := hcatalog

/-- An accepted update is saved. -/
theorem saved_updateSite {outcomes : ℕ → SiteChoice} {answer : SiteDto}
    (h : (w.updateSite u dto outcomes).1 = .ok answer) (hcatalog : w.catalog ∈ w.catalogs) :
    Saved u dto (w.accounts u).country (w.env (.updateSite u dto outcomes)) := by
  rcases updateSite_site u dto outcomes w with ⟨e, he⟩ | ⟨site, hs, hrows⟩
  · rw [he] at h
    cases h
  · have hsite : (w.env (.updateSite u dto outcomes)).site = site := congrArg Prod.snd hs
    refine ⟨?_, fun c => ?_, rfl, hcatalog⟩
    · rw [hsite, hrows]
      exact AList.lookup_insert _
    · rw [hsite]
      exact SiteService.toSiteDto_userSite hrows c

theorem Saved.env (h : Saved u dto country w) {e : UserStep} (he : SparesSite u w e) :
    Saved u dto country (w.env e) ∧ w.catalogs ⊆ (w.env e).catalogs := by
  cases e with
  | updateSite userId dto' outcomes =>
    refine ⟨h.sameRows ?_ rfl h.catalog, List.Subset.refl _⟩
    rcases updateSite_site userId dto' outcomes w with ⟨e, hs⟩ | ⟨site, hs, hrows⟩
    · have hsite : (w.env (.updateSite userId dto' outcomes)).site = w.site :=
        congrArg Prod.snd hs
      rw [hsite]
      exact ⟨rfl, rfl, rfl, rfl⟩
    · have hsite : (w.env (.updateSite userId dto' outcomes)).site = site := congrArg Prod.snd hs
      rw [hsite, hrows]
      exact sameRows_replaced he dto' _
  | register id name account =>
    by_cases hold : (w.site.users.lookup id).isSome = true
    · have hw : w.env (.register id name account) = w := if_pos hold
      rw [hw]
      exact ⟨h, List.Subset.refl _⟩
    · have hne : u ≠ id := by
        rintro rfl
        rw [h.user] at hold
        exact hold rfl
      have hw : w.env (.register id name account) =
          { w with
            site := w.site.createUser id name
            accounts := Function.update w.accounts id account } := if_neg hold
      rw [hw]
      exact ⟨h.sameRows (sameRows_createUser hne name w.site) (Function.update_of_ne hne ..)
        h.catalog, List.Subset.refl _⟩
  | catalog catalog =>
    exact ⟨h.sameRows ⟨rfl, rfl, rfl, rfl⟩ rfl
      (List.mem_append_right _ (List.mem_singleton_self _)), List.subset_append_left _ _⟩

theorem Saved.updateUser (h : Saved u dto country w) {id : String} (hne : u ≠ id)
    (data : UpdateProfileDto) : Saved u dto country (w.updateUser id data).2 ∧
      (w.updateUser id data).2.catalogs = w.catalogs := by
  unfold UserWorld.updateUser
  split
  · exact ⟨h, rfl⟩
  split
  · exact ⟨h, rfl⟩
  split
  · exact ⟨h, rfl⟩
  · next hs =>
    exact ⟨h.sameRows (sameRows_updateUser hne hs) (Function.update_of_ne hne ..) h.catalog, rfl⟩

theorem Saved.exec (h : Saved u dto country w) {r : UserRequest} {c : UserChoice}
    (hr : SparesUser u w r c) : Saved u dto country (userExec r c w).2 ∧
      (userExec r c w).2.catalogs = w.catalogs := by
  have heffect : Saved u dto country (userEffect r c w).2 ∧
      (userEffect r c w).2.catalogs = w.catalogs := by
    cases r with
    | userUpdate id data => exact h.updateUser hr data
    | _ => exact ⟨h, rfl⟩
  unfold userExec
  split
  · exact heffect
  · exact ⟨h, rfl⟩
  · exact heffect

/-! ## Usernames -/

theorem holder_eq_some {name : String} :
    w.holder name = some u ↔ ∃ p, w.site.users.lookup u = some p ∧ p.username = some name := by
  constructor
  · intro h
    obtain ⟨e, he, rfl⟩ := Option.map_eq_some_iff.1 h
    have hname : e.2.username = some name := by
      simpa using List.find?_some he
    exact ⟨e.2, AList.mem_lookup_iff.2 (List.mem_of_find?_eq_some he), hname⟩
  · rintro ⟨p, hp, hname⟩
    have hfind : (w.site.users.entries.find? (·.2.username = some name)).isSome = true :=
      List.find?_isSome.2 ⟨⟨u, p⟩, AList.mem_lookup_iff.1 hp, decide_eq_true hname⟩
    obtain ⟨e, he⟩ := Option.isSome_iff_exists.1 hfind
    have hlookup : w.site.users.lookup e.1 = some e.2 :=
      AList.mem_lookup_iff.2 (List.mem_of_find?_eq_some he)
    have hname' : e.2.username = some name := by
      simpa using List.find?_some he
    have hid : e.1 = u := w.site.usernames e.1 u e.2 p name hlookup hp hname' hname
    rw [UserWorld.holder, he, Option.map_some, hid]

theorem Saved.holder (h : Saved u dto country w) : w.holder dto.username = some u :=
  holder_eq_some.2 ⟨_, h.user, rfl⟩

theorem Saved.publicUser_ne_none (h : Saved u dto country w) {c : SiteChoice} :
    w.publicUser dto.username c ≠ none := by
  intro hnone
  have hsite := h.site c
  rw [UserWorld.publicUser, h.holder, Option.bind_some, Option.map_eq_none_iff] at hnone
  rw [hnone] at hsite
  cases hsite

/-! ## The page of a body -/

/-- What a public page shows of a mini-site, besides products. -/
def pageOf (country : Option String) (dto : SiteDto) (products : List PublicProduct) :
    PublicProfile where
  username := dto.username
  displayName := dto.displayName
  bio := dto.bio
  country := country
  avatarEmoji := dto.avatarEmoji
  accent := dto.accent
  products := products
  socials := dto.socials.getD {}
  links := dto.links

/-- Those of the featured products that are active. -/
def featuredOf (ids : List String) (c : Catalog) : List PublicProduct :=
  UsersService.featuredProducts (ids.map fun id => (c.db.products.lookup id).map fun p => (id, p))

/-- Products to show, of the catalogs that there have been : the featured ones that are active,
or the newest active ones if there are none. -/
def Offered (u : String) (ids : List String) (catalogs : List Catalog)
    (products : List PublicProduct) : Prop :=
  ∃ c ∈ catalogs, products = featuredOf ids c ∧ products ≠ [] ∨ featuredOf ids c = [] ∧
    ∃ c' ∈ catalogs, ∃ n, products = (c'.newest u n).map UsersService.toPublicProduct

/-- What a query for a username finds. The user `u` comes as the update left it. -/
structure Found (u : String) (dto : SiteDto) (country : Option String) (username : String)
    (user : PublicUser) (w : UserWorld) : Prop where
  holds : user.site.profile.username = some username
  id : username = dto.username → user.id = u
  country : username = dto.username → user.country = country
  site : username = dto.username → SiteService.toSiteDto user.site = dto.stored
  featured : username = dto.username → ∃ c ∈ w.catalogs,
    UsersService.featuredProducts user.featured = featuredOf dto.featuredProductIds c

theorem Saved.found (h : Saved u dto country w) {username : String} {c : SiteChoice}
    {user : PublicUser} (hu : w.publicUser username c = some user) :
    Found u dto country username user w := by
  obtain ⟨id, hid, huser⟩ := Option.bind_eq_some_iff.1 hu
  obtain ⟨site, hsite, rfl⟩ := Option.map_eq_some_iff.1 huser
  have hu' : username = dto.username → id = u := by
    rintro rfl
    exact Option.some.inj (hid.symm.trans h.holder)
  have hdto : username = dto.username → SiteService.toSiteDto site = dto.stored := fun hname => by
    have hs := h.site c
    rw [← hu' hname, hsite] at hs
    exact Option.some.inj hs
  refine ⟨?_, hu', fun hname => ?_, hdto, fun hname => ⟨w.catalog, h.catalog, ?_⟩⟩
  · obtain ⟨p, hp, hname⟩ := holder_eq_some.1 hid
    obtain ⟨p', hp', rfl⟩ := Option.map_eq_some_iff.1 hsite
    rw [hp, Option.some_inj] at hp'
    rw [← hp', hname]
  · rw [hu' hname]
    exact h.country
  · have hids : site.featuredProducts.map (·.productId) = dto.featuredProductIds :=
      congrArg SiteDto.featuredProductIds (hdto hname)
    rw [featuredOf, ← hids, List.map_map]
    rfl

theorem Found.page {username : String} {user : PublicUser}
    (h : Found u dto country username user w) (hname : username = dto.username)
    (products : List PublicProduct) :
    UsersService.publicProfile user products = pageOf country dto.stored products := by
  have hpage : UsersService.publicProfile user products =
      pageOf user.country (SiteService.toSiteDto user.site) products := rfl
  rw [hpage, h.country hname, h.site hname]

/-! ## Answers since the update -/

/-- Products to show are still to show later. -/
theorem Found.mono {username : String} {user : PublicUser}
    (h : Found u dto country username user w) (hc : w.catalogs ⊆ w'.catalogs) :
    Found u dto country username user w' where
  holds := h.holds
  id := h.id
  country := h.country
  site := h.site
  featured hname := by
    obtain ⟨c, hc', heq⟩ := h.featured hname
    exact ⟨c, hc hc', heq⟩

/-- What an answer says of the username. -/
def Correct (u : String) (dto : SiteDto) (country : Option String) :
    UserAnswer → UserWorld → Prop
  | .page page, w => page.username = dto.username → ∃ products,
    page = pageOf country dto.stored products ∧
      Offered u dto.featuredProductIds w.catalogs products
  | .availability username available, _ => username = dto.username → available = false
  | .profile _, _ => True

/-- An error that does not deny the username. -/
def Undenied (u : String) (dto : SiteDto) (country : Option String) (e : UserError)
    (w : UserWorld) : Prop :=
  Saved u dto country w ∧ e ≠ UsersService.creatorNotFound dto.username

/-- Any calls, of which none changes the row of `u`. The catalogs only grow. -/
def discipline (u : String) (dto : SiteDto) (country : Option String) : Discipline usersMachine :=
  Discipline.apart usersMachine (Saved u dto country) (fun _ w w' => w.catalogs ⊆ w'.catalogs)
    (SparesUser u) (SparesSite u) (fun _ _ => List.Subset.refl _)
    (fun h h' => List.Subset.trans h h') fun h he => ⟨(h.env he).1, fun _ => (h.env he).2⟩

variable {i : ℕ}

theorem assertion {P : UserWorld → Prop}
    (hP : ∀ {w w'}, P w → w.catalogs ⊆ w'.catalogs → P w') :
    (discipline u dto country).Assertion i fun w => Saved u dto country w ∧ P w where
  inv h := h.1
  rely h hr hi := ⟨hi, hP h.2 hr⟩

theorem assertion_saved : (discipline u dto country).Assertion i (Saved u dto country) :=
  ⟨fun h => h, fun _ _ h => h⟩

/-- A request fails with an error of the database, or has its effect. -/
theorem userExec_spec (r : UserRequest) (c : UserChoice) (w : UserWorld) :
    (∃ d, (userExec r c w).1 = .error (.database d)) ∨
      ∃ a, (userExec r c w).1 = .ok a ∧ userEffect r c w = (.ok a, (userExec r c w).2) := by
  have heffect : (∃ d, (userEffect r c w).1 = .error (.database d)) ∨
      ∃ a, (userEffect r c w).1 = .ok a := by
    cases r with
    | userUpdate id data =>
      simp only [userEffect, UserWorld.updateUser]
      split
      · exact .inl ⟨_, rfl⟩
      split
      · exact .inl ⟨_, rfl⟩
      split
      · exact .inl ⟨_, rfl⟩
      · exact .inr ⟨_, rfl⟩
    | _ => exact .inr ⟨_, rfl⟩
  unfold userExec
  split
  · rcases heffect with h | ⟨a, ha⟩
    · exact .inl h
    · exact .inr ⟨a, ha, Prod.ext ha rfl⟩
  · exact .inl ⟨_, rfl⟩
  · exact .inl ⟨_, rfl⟩

/-- A request. Its errors are those of the database. -/
theorem triple_ask {P : UserWorld → Prop} {r : UserRequest} {Q : r.Ans → UserWorld → Prop}
    (hP : (discipline u dto country).Assertion i P)
    (hok : ∀ {w c a w'}, P w → userEffect r c w = (.ok a, w') → Saved u dto country w' →
      w.catalogs ⊆ w'.catalogs → Q a w') :
    Triple (discipline u dto country) i P (awaitUser r) Q (Undenied u dto country) := by
  have hexec : ∀ {w c}, P w → SparesUser u w r c → Saved u dto country (userExec r c w).2 ∧
      w.catalogs ⊆ (userExec r c w).2.catalogs := by
    intro w c hw hc
    obtain ⟨hsaved, hcatalogs⟩ := (hP.inv hw : Saved u dto country w).exec hc
    exact ⟨hsaved, hcatalogs ▸ List.Subset.refl _⟩
  refine Triple.ask hP (fun _ _ => trivial) (fun w c hw hc j _ => (hexec hw hc).2)
    (fun w c a hw hc ha => ?_) fun w c e hw hc he => ⟨(hexec hw hc).1, ?_⟩
  · rcases userExec_spec r c w with ⟨d, hd⟩ | ⟨a', ha', heffect⟩
    · cases ha.symm.trans hd
    · obtain rfl : a' = a := Except.ok.inj (ha'.symm.trans ha)
      exact hok hw heffect (hexec hw hc).1 (hexec hw hc).2
  · rcases userExec_spec r c w with ⟨d, hd⟩ | ⟨a', ha', -⟩
    · obtain rfl := Except.error.inj (he.symm.trans hd)
      exact fun h => by cases h
    · cases he.symm.trans ha'

theorem creatorNotFound_inj {name name' : String}
    (h : UsersService.creatorNotFound name = UsersService.creatorNotFound name') :
    name = name' := by
  have htext := congrArg String.toList (UserError.notFound.inj h)
  simp only [String.toList_append] at htext
  exact String.toList_inj.1 (List.append_cancel_left (List.append_cancel_right htext))

theorem userNotFound_ne (id name : String) :
    UsersService.userNotFound id ≠ UsersService.creatorNotFound name := by
  intro h
  have htext := congrArg (fun s : String => s.toList.head?) (UserError.notFound.inj h)
  simp [String.toList_append] at htext

theorem triple_getProfile (id : String) :
    Triple (discipline u dto country) i (Saved u dto country) (UsersService.getProfile id)
      (fun _ => Saved u dto country) (Undenied u dto country) := by
  refine Triple.bind (R := fun _ => Saved u dto country)
    (triple_ask assertion_saved fun _ _ h _ => h) fun x => ?_
  cases x with
  | none => exact Triple.raise fun w h => ⟨h, userNotFound_ne _ _⟩
  | some user => exact Triple.ret fun w h => h

theorem triple_updateProfile (id : String) (data : UpdateProfileDto) :
    Triple (discipline u dto country) i (Saved u dto country)
      (UsersService.updateProfile id data) (fun _ => Saved u dto country)
      (Undenied u dto country) := by
  refine Triple.bind (R := fun _ => Saved u dto country)
    (triple_ask assertion_saved fun _ _ h _ => h) fun x => ?_
  cases x with
  | none => exact Triple.raise fun w h => ⟨h, userNotFound_ne _ _⟩
  | some user =>
    refine Triple.bind (R := fun _ => Saved u dto country) ?_ fun _ =>
      Triple.bind (R := fun _ => Saved u dto country)
        (triple_ask assertion_saved fun _ _ h _ => h) fun _ => Triple.ret fun w h => h
    unfold UsersService.checkUnique
    split
    · exact Triple.ret fun w h => h
    · refine Triple.bind (R := fun _ => Saved u dto country)
        (triple_ask assertion_saved fun _ _ h _ => h) fun existing => ?_
      cases existing with
      | true => exact Triple.raise fun w h => ⟨h, fun he => by cases he⟩
      | false => exact Triple.ret fun w h => h

/-- The username is not available. -/
theorem triple_checkUsername (username : String) :
    Triple (discipline u dto country) i (Saved u dto country)
      (UsersService.checkUsername username)
      (fun available w => Saved u dto country w ∧ (username = dto.username → available = false))
      (Undenied u dto country) := by
  refine Triple.bind
    (R := fun existing w => Saved u dto country w ∧ (username = dto.username → existing = true))
    (triple_ask assertion_saved fun {w c a w'} hw heffect hsaved _ => ⟨hsaved, ?_⟩)
    fun existing => Triple.ret fun w h => ⟨h.1, fun hname => ?_⟩
  · rintro rfl
    obtain rfl : (w.holder dto.username).isSome = a := Except.ok.inj (congrArg Prod.fst heffect)
    rw [hw.holder]
    rfl
  · rw [h.2 hname]
    rfl

/-- The page is that of the saved body, with products of the catalogs since. -/
theorem triple_getPublicProfile (username : String) :
    Triple (discipline u dto country) i (Saved u dto country)
      (UsersService.getPublicProfile username)
      (fun page w => Saved u dto country w ∧ Correct u dto country (.page page) w)
      (Undenied u dto country) := by
  have hpage : ∀ {user : PublicUser} {products : List PublicProduct} {w : UserWorld},
      Found u dto country username user w →
      (username = dto.username → Offered u dto.featuredProductIds w.catalogs products) →
        Correct u dto country (.page (UsersService.publicProfile user products)) w := by
    intro user products w hfound hoffered hname
    have hholds : (UsersService.publicProfile user products).username = username := by
      rw [UsersService.publicProfile, hfound.holds]
      rfl
    rw [hholds] at hname
    exact ⟨products, hfound.page hname products, hoffered hname⟩
  refine Triple.bind (R := fun (x : Option PublicUser) w => Saved u dto country w ∧
    (x = none → username ≠ dto.username) ∧ ∀ user ∈ x, Found u dto country username user w)
    (triple_ask assertion_saved fun {w c a w'} hw heffect hsaved _ => ⟨hsaved, ?_⟩) fun x => ?_
  · obtain ⟨ha, rfl⟩ := Prod.mk.inj heffect
    obtain rfl := Except.ok.inj ha
    refine ⟨?_, fun user hu => hw.found hu⟩
    rintro hnone rfl
    exact hw.publicUser_ne_none hnone
  · cases x with
    | none =>
      exact Triple.raise fun w h => ⟨h.1, fun he => h.2.1 rfl (creatorNotFound_inj he)⟩
    | some user =>
      dsimp only
      split
      · next hnil =>
        refine Triple.bind (R := fun (recent : List (String × Product)) w =>
          Saved u dto country w ∧ Found u dto country username user w ∧
            (username = dto.username → ∃ c ∈ w.catalogs, ∃ n, recent = c.newest u n))
          (triple_ask (assertion fun h hc => ⟨h.1, fun x hx => (h.2 x hx).mono hc⟩)
            fun {w c recent w'} hw heffect hsaved _ => ?_) fun recent => Triple.ret fun w h => ?_
        · obtain ⟨ha, rfl⟩ := Prod.mk.inj heffect
          obtain rfl := Except.ok.inj ha
          have hfound := hw.2.2 user rfl
          refine ⟨hsaved, hfound, fun hname => ⟨w.catalog, hsaved.catalog, c.productOrder, ?_⟩⟩
          rw [hfound.id hname]
        · refine ⟨h.1, hpage h.2.1 fun hname => ?_⟩
          obtain ⟨c, hc, heq⟩ := h.2.1.featured hname
          obtain ⟨c', hc', n, rfl⟩ := h.2.2 hname
          exact ⟨c, hc, .inr ⟨heq.symm.trans hnil, c', hc', n, rfl⟩⟩
      · next hne =>
        refine Triple.ret fun w h => ⟨h.1, hpage (h.2.2 user rfl) fun hname => ?_⟩
        obtain ⟨c, hc, heq⟩ := (h.2.2 user rfl).featured hname
        exact ⟨c, hc, .inl ⟨heq, hne⟩⟩

theorem triple_method (call : UserCall) :
    Triple (discipline u dto country) i (Saved u dto country) call.method
      (fun answer w => Saved u dto country w ∧ Correct u dto country answer w)
      (Undenied u dto country) := by
  cases call with
  | getProfile id =>
    exact Triple.bind (triple_getProfile id) fun _ => Triple.ret fun w h => ⟨h, trivial⟩
  | updateProfile id data =>
    exact Triple.bind (triple_updateProfile id data) fun _ => Triple.ret fun w h => ⟨h, trivial⟩
  | checkUsername username =>
    exact Triple.bind (triple_checkUsername username) fun _ => Triple.ret fun w h => h
  | getPublicProfile username =>
    exact Triple.bind (triple_getPublicProfile username) fun _ => Triple.ret fun w h => h

theorem Correct.mono {answer : UserAnswer} (h : Correct u dto country answer w)
    (hc : w.catalogs ⊆ w'.catalogs) : Correct u dto country answer w' := by
  cases answer with
  | page page =>
    intro hname
    obtain ⟨products, hpage, c, hc₁, hoffered⟩ := h hname
    refine ⟨products, hpage, c, hc hc₁, hoffered.imp_right fun hnewest => ?_⟩
    obtain ⟨hnil, c', hc₂, hproducts⟩ := hnewest
    exact ⟨hnil, c', hc hc₂, hproducts⟩
  | availability username available => exact h
  | profile response => exact trivial

theorem stable : Stable (discipline u dto country) i
    (fun answer w => Saved u dto country w ∧ Correct u dto country answer w)
    (Undenied u dto country) where
  ret_inv h := h.1
  raise_inv h := h.1
  ret_rely h hr hi := ⟨hi, h.2.mono hr⟩
  raise_rely h _ hi := ⟨hi, h.2⟩

theorem suspended_method (call : UserCall) : call.method.Suspended := by
  cases call <;> exact trivial

end PublicPages

open PublicPages in
/-- A creator saves its mini-site, and then leaves it and its profile alone. Among any calls of
anybody, any updates of other mini-sites, new users and changes of the products, interleaved in
any way, the answers about its username are right : a public page is that of the saved body,
without its empty handles, with the featured products that were active at some time since, or
the newest ones if none was. The username is never denied and never available. -/
theorem site_published (u : String) (dto : SiteDto) (outcomes : ℕ → SiteChoice) (w : UserWorld)
    (hsaved : ∃ answer, (w.updateSite u dto outcomes).1 = .ok answer)
    (hcatalog : w.catalogs = [w.catalog]) (calls : List UserCall)
    (as : List (Action UserChoice UserStep))
    (hrun : Config.Along usersMachine (Config.Meets (SparesUser u) (SparesSite u)) as
      ⟨calls.map (·.method), w.env (.updateSite u dto outcomes)⟩) :
    ∀ s : Config users UserWorld UserAnswer, s = Config.run usersMachine as
        ⟨calls.map (·.method), w.env (.updateSite u dto outcomes)⟩ → ∀ i : ℕ,
      (∀ page, s.threads[i]? = some (.ret (.page page)) → page.username = dto.username →
        ∃ products, page = pageOf (w.accounts u).country dto.stored products ∧
          Offered u dto.featuredProductIds s.world.catalogs products) ∧
      s.threads[i]? ≠ some (.raise (UsersService.creatorNotFound dto.username)) ∧
      s.threads[i]? ≠ some (.ret (.availability dto.username true)) := by
  rintro s rfl i
  obtain ⟨answer, hanswer⟩ := hsaved
  have hstart : Config.Safe (discipline u dto (w.accounts u).country)
      (fun _ answer w' => Saved u dto (w.accounts u).country w' ∧
        Correct u dto (w.accounts u).country answer w')
      (fun _ => Undenied u dto (w.accounts u).country)
      ⟨calls.map (·.method), w.env (.updateSite u dto outcomes)⟩ := by
    have hinv := saved_updateSite hanswer (by rw [hcatalog]; exact List.mem_singleton_self _)
    refine ⟨hinv, fun i p hp => ?_⟩
    obtain ⟨call, -, rfl⟩ := List.mem_map.1 (List.mem_of_getElem? hp)
    exact ⟨suspended_method call, triple_method call _ hinv⟩
  have hend := hstart.run (fun _ => stable) as hrun
  refine ⟨fun page hp hname => ?_, fun hp => ?_, fun hp => ?_⟩
  · rcases hend.ended hp trivial with ⟨a, ha, hQ⟩ | ⟨e, he, -⟩
    · obtain rfl := Prog.ret.inj ha
      exact hQ.2 hname
    · cases he
  · rcases hend.ended hp trivial with ⟨a, ha, -⟩ | ⟨e, he, hX⟩
    · cases ha
    · obtain rfl := Prog.raise.inj he
      exact hX.2 rfl
  · rcases hend.ended hp trivial with ⟨a, ha, hQ⟩ | ⟨e, he, -⟩
    · obtain rfl := Prog.ret.inj ha
      cases hQ.2 rfl
    · cases he

/-- A creator, since the day its product was created. -/
def demoAccount : Account :=
  ⟨"a@b.c", some "Indonesia", "CREATOR", 2026, 7, 1, 8, 30, 0, 0, by decide, by decide⟩

/-- The products of the example. -/
def demoShelf : Catalog :=
  ⟨demoSite.db, fun _ => demoAccount.createdAt⟩

/-- The user `alice` with its product. -/
def demoUsers : UserWorld :=
  ⟨demoShelf, demoSite.site, fun _ => demoAccount, [demoShelf]⟩

/-- `bob` registers and asks for the username of `alice`, whose page is put together. -/
def demoVisit : Config users UserWorld UserAnswer :=
  Config.run usersMachine
    [.env (.register "bob" "Bob" demoAccount), .run 1 {}, .run 0 {}, .run 1 {}]
    ⟨[.getPublicProfile "alice.b", .updateProfile "bob"
      { username := some (some "alice.b") }].map UserCall.method,
    demoUsers.env (.updateSite "alice" demoSiteDto fun _ => {})⟩

/-- What the page of `alice` shows. -/
def demoPublic : PublicProfile :=
  PublicPages.pageOf (some "Indonesia") demoSiteDto.stored [⟨"product", "Presets", "10.00"⟩]

theorem site_published_visit : demoVisit.threads[0]? = some (.ret (.page demoPublic)) ∧
    PublicPages.Offered "alice" ["product"] demoVisit.world.catalogs demoPublic.products := by
  have hsaved : ∃ answer, (demoUsers.updateSite "alice" demoSiteDto fun _ => {}).1 =
      .ok answer := ⟨_, rfl⟩
  have hpage : demoVisit.threads[0]? = some (.ret (.page demoPublic)) := rfl
  obtain ⟨products, heq, hoffered⟩ := (site_published "alice" demoSiteDto (fun _ => {}) demoUsers
    hsaved rfl _ _ (by decide) demoVisit rfl 0).1 demoPublic hpage rfl
  obtain rfl : demoPublic.products = products := congrArg PublicProfile.products heq
  exact ⟨hpage, hoffered⟩

end Kreav
