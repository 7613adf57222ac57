import Kreav.Backend
import Kreav.Lib.Transactions
import Mathlib.Data.List.Sort

/-!
# The mini-site

`backend/src/site/site.service.ts` with the bodies of `dto/site.dto.ts`. The mini-site of a
user is four columns of the user and the rows of three tables. `updateSite` replaces all of
them in one transaction, and checks on the way that the featured products are the user's.
`getSite` reads them back, the links and the products by their `sortOrder`.

The methods are programs over `sites`, on the tables of `SiteDatabase`.
-/

open Async

namespace Kreav

/-! ## Bodies -/

/-- A link of a request. -/
structure CustomLinkDto where
  label : String
  url : String
  deriving DecidableEq, Repr

/-- The handles of a request. -/
structure SocialsDto where
  instagram : Option String := none
  x : Option String := none
  tiktok : Option String := none
  youtube : Option String := none
  deriving DecidableEq, Repr

/-- The body of `PUT /users/me/site`, and the answer. An optional field that is absent or null
is `none`. -/
structure SiteDto where
  displayName : String
  username : String
  bio : Option String
  avatarEmoji : Option String
  accent : Option String
  socials : Option SocialsDto
  links : List CustomLinkDto
  featuredProductIds : List String
  deriving DecidableEq, Repr

/-! ## Tables -/

/-- The columns of a user that the mini-site shows. -/
structure Profile where
  name : String
  username : Option String
  bio : Option String
  avatarEmoji : Option String
  accent : Option String
  deriving DecidableEq, Repr

/-- A row of `social_links`. -/
structure SocialLink where
  userId : String
  platform : String
  handle : String
  deriving DecidableEq, Repr

/-- A row of `custom_links`. -/
structure CustomLink where
  userId : String
  label : String
  url : String
  sortOrder : ℕ
  deriving DecidableEq, Repr

/-- A row of `featured_products`. -/
structure FeaturedProduct where
  userId : String
  productId : String
  sortOrder : ℕ
  deriving DecidableEq, Repr

/-- The rows of the tables. -/
structure SiteRows where
  users : AList fun _ : String => Profile
  socialLinks : List SocialLink
  customLinks : List CustomLink
  featuredProducts : List FeaturedProduct

/-- The tables, with their unique indexes. -/
structure SiteTables extends SiteRows where
  usernames : ∀ id id' p p' name, users.lookup id = some p → users.lookup id' = some p' →
    p.username = some name → p'.username = some name → id = id'
  platforms : (socialLinks.map fun l => (l.userId, l.platform)).Nodup
  featured : (featuredProducts.map fun f => (f.userId, f.productId)).Nodup

namespace SiteTables

/-- Another user has the username. -/
def UsernameTaken (id : String) (username : Option String) (t : SiteTables) : Prop :=
  ∃ e ∈ t.users.entries, e.1 ≠ id ∧ username.isSome ∧ e.2.username = username

instance (id : String) (username : Option String) (t : SiteTables) :
    Decidable (t.UsernameTaken id username) :=
  inferInstanceAs (Decidable (∃ e ∈ _, _))

theorem not_username_of_not_taken {id id' name : String} {p : Profile} {t : SiteTables}
    (h : ¬ t.UsernameTaken id (some name)) (hne : id' ≠ id) (hp : t.users.lookup id' = some p) :
    p.username ≠ some name := fun he =>
  h ⟨⟨id', p⟩, AList.mem_lookup_iff.1 hp, hne, rfl, he⟩

/-- `user.update`. -/
def updateUser (id : String) (data : Profile) (t : SiteTables) : Except DbError SiteTables :=
  if (t.users.lookup id).isNone then .error .recordNotFound
  else if h : t.UsernameTaken id data.username then .error .uniqueViolation
  else .ok { t with
    users := t.users.insert id data
    usernames := by
      intro a b p q name ha hb hp hq
      by_cases hai : a = id <;> by_cases hbi : b = id
      · rw [hai, hbi]
      · subst hai
        rw [AList.lookup_insert, Option.some_inj] at ha
        rw [AList.lookup_insert_ne hbi] at hb
        rw [ha, hp] at h
        exact absurd hq (not_username_of_not_taken h hbi hb)
      · subst hbi
        rw [AList.lookup_insert_ne hai] at ha
        rw [AList.lookup_insert, Option.some_inj] at hb
        rw [hb, hq] at h
        exact absurd hp (not_username_of_not_taken h hai ha)
      · rw [AList.lookup_insert_ne hai] at ha
        rw [AList.lookup_insert_ne hbi] at hb
        exact t.usernames a b p q name ha hb hp hq }

/-- `socialLink.deleteMany`. -/
def deleteSocialLinks (userId : String) (t : SiteTables) : SiteTables :=
  { t with
    socialLinks := t.socialLinks.filter (·.userId ≠ userId)
    platforms := t.platforms.sublist (List.filter_sublist.map _) }

/-- `socialLink.createMany`. -/
def createSocialLinks (rows : List SocialLink) (t : SiteTables) : Except DbError SiteTables :=
  if ∃ r ∈ rows, (t.users.lookup r.userId).isNone then .error .recordNotFound
  else if h : ((t.socialLinks ++ rows).map fun l => (l.userId, l.platform)).Nodup then
    .ok { t with socialLinks := t.socialLinks ++ rows, platforms := h }
  else .error .uniqueViolation

/-- `customLink.deleteMany`. -/
def deleteCustomLinks (userId : String) (t : SiteTables) : SiteTables :=
  { t with customLinks := t.customLinks.filter (·.userId ≠ userId) }

/-- `customLink.createMany`. -/
def createCustomLinks (rows : List CustomLink) (t : SiteTables) : Except DbError SiteTables :=
  if ∃ r ∈ rows, (t.users.lookup r.userId).isNone then .error .recordNotFound
  else .ok { t with customLinks := t.customLinks ++ rows }

/-- `featuredProduct.deleteMany`. -/
def deleteFeaturedProducts (userId : String) (t : SiteTables) : SiteTables :=
  { t with
    featuredProducts := t.featuredProducts.filter (·.userId ≠ userId)
    featured := t.featured.sublist (List.filter_sublist.map _) }

/-- `featuredProduct.createMany`, among the products of the database. -/
def createFeaturedProducts (db : Database) (rows : List FeaturedProduct) (t : SiteTables) :
    Except DbError SiteTables :=
  if ∃ r ∈ rows, (t.users.lookup r.userId).isNone ∨ (db.products.lookup r.productId).isNone then
    .error .recordNotFound
  else if h : ((t.featuredProducts ++ rows).map fun f => (f.userId, f.productId)).Nodup then
    .ok { t with featuredProducts := t.featuredProducts ++ rows, featured := h }
  else .error .uniqueViolation

end SiteTables

/-- The database, with the tables of the mini-sites. -/
structure SiteDatabase where
  db : Database
  site : SiteTables

/-! ## Requests -/

/-- The errors of the site service. -/
inductive SiteError
  | notFound (message : String)
  | forbidden (message : String)
  | database (e : DbError)
  /-- A property of null. -/
  | typeError
  deriving DecidableEq, Repr

/-- A user with its mini-site, as `findUnique` includes it. -/
structure UserSite where
  profile : Profile
  socialLinks : List SocialLink
  customLinks : List CustomLink
  featuredProducts : List FeaturedProduct
  deriving DecidableEq, Repr

/-- What the service asks of the database. -/
inductive SiteRequest
  /-- `user.findUnique` : whether there is one. -/
  | userFindUnique (id : String)
  /-- `user.findUnique` with the mini-site. -/
  | siteFindUnique (id : String)
  | userUpdate (id : String) (data : Profile)
  | socialLinkDeleteMany (userId : String)
  | socialLinkCreateMany (rows : List SocialLink)
  | customLinkDeleteMany (userId : String)
  | customLinkCreateMany (rows : List CustomLink)
  | featuredProductDeleteMany (userId : String)
  | featuredProductCreateMany (rows : List FeaturedProduct)
  /-- `product.findFirst` : whether there is one. -/
  | productFindFirst (id creatorId : String)
  deriving DecidableEq, Repr

/-- The answers. -/
def SiteRequest.Ans : SiteRequest → Type
  | .userFindUnique _ => Bool
  | .siteFindUnique _ => Option UserSite
  | .productFindFirst _ _ => Bool
  | _ => Unit

/-- The statements of the site service. It emits no events. -/
abbrev sites : Sig where
  Req := SiteRequest
  Ans := SiteRequest.Ans
  Event := Empty
  Error := SiteError

/-- A method of the site service. -/
abbrev SiteMethod (α : Type) :=
  Prog sites.transactional α

/-- The statements on one client. -/
abbrev SiteStatements (α : Type) :=
  Prog sites α

/-- `await` of a statement. -/
abbrev awaitSite (r : SiteRequest) : SiteStatements r.Ans :=
  Prog.ask (S := sites) r

/-! ## The service -/

/-- `toUpperCase()` of ASCII letters. -/
def toUpperCase (s : String) : String :=
  String.ofList (s.toList.map Char.toUpper)

/-- `toLowerCase()`, as far as it gives ASCII letters : those of `A` to `Z`, and `k` of the
kelvin sign. -/
def toLowerCase (s : String) : String :=
  String.ofList (s.toList.map fun c => if c = '\u212A' then 'k' else c.toLower)

namespace SiteService

/-- `Object.entries` of the socials. -/
def entries (socials : SocialsDto) : List (String × Option String) :=
  [("instagram", socials.instagram), ("x", socials.x), ("tiktok", socials.tiktok),
    ("youtube", socials.youtube)]

/-- The columns that an update sets. -/
def profile (dto : SiteDto) : Profile where
  name := dto.displayName
  username := some dto.username
  bio := dto.bio
  avatarEmoji := dto.avatarEmoji
  accent := dto.accent

/-- The social links to create : those with a handle. -/
def socialEntries (userId : String) (dto : SiteDto) : List SocialLink :=
  (dto.socials.elim [] entries).filterMap fun (platform, handle) =>
    (handle.filter (· ≠ "")).map fun handle => ⟨userId, toUpperCase platform, handle⟩

/-- The custom links to create. -/
def linkRows (userId : String) (dto : SiteDto) : List CustomLink :=
  dto.links.mapIdx fun i link => ⟨userId, link.label, link.url, i⟩

/-- The featured products to create. -/
def featuredRows (userId : String) (dto : SiteDto) : List FeaturedProduct :=
  dto.featuredProductIds.mapIdx fun i productId => ⟨userId, productId, i⟩

/-- Every featured product must belong to this creator. -/
def checkOwnership (userId : String) : List String → SiteStatements Unit
  | [] => return ()
  | productId :: rest => do
    let product ← awaitSite (.productFindFirst productId userId)
    if !product then
      throw (.forbidden
        ("Product " ++ productId ++ " does not belong to you and cannot be featured."))
    else checkOwnership userId rest

/-- `if (rows.length > 0)`. -/
def ifAny {α : Type} [DecidableEq α] (rows : List α) (p : SiteStatements Unit) :
    SiteStatements Unit :=
  if rows ≠ [] then p else return ()

/-- The statements of the transaction. -/
def replaceSite (userId : String) (dto : SiteDto) : SiteStatements (Option UserSite) := do
  awaitSite (.userUpdate userId (profile dto))
  awaitSite (.socialLinkDeleteMany userId)
  ifAny (socialEntries userId dto) (awaitSite (.socialLinkCreateMany (socialEntries userId dto)))
  awaitSite (.customLinkDeleteMany userId)
  ifAny dto.links (awaitSite (.customLinkCreateMany (linkRows userId dto)))
  awaitSite (.featuredProductDeleteMany userId)
  ifAny dto.featuredProductIds do
    checkOwnership userId dto.featuredProductIds
    awaitSite (.featuredProductCreateMany (featuredRows userId dto))
  awaitSite (.siteFindUnique userId)

/-- The handle of the last social link of a platform. -/
def handleOf (platform : String) (rows : List SocialLink) : Option String :=
  (rows.reverse.find? fun sl => toLowerCase sl.platform = platform).map (·.handle)

/-- The body of a user with its mini-site. -/
def toSiteDto (user : UserSite) : SiteDto where
  displayName := user.profile.name
  username := user.profile.username.getD ""
  bio := user.profile.bio
  avatarEmoji := user.profile.avatarEmoji
  accent := user.profile.accent
  socials := some
    { instagram := handleOf "instagram" user.socialLinks
      x := handleOf "x" user.socialLinks
      tiktok := handleOf "tiktok" user.socialLinks
      youtube := handleOf "youtube" user.socialLinks }
  links := user.customLinks.map fun cl => ⟨cl.label, cl.url⟩
  featuredProductIds := user.featuredProducts.map (·.productId)

/-- There is no user with the id. -/
def userNotFound (userId : String) : SiteError :=
  .notFound ("User " ++ userId ++ " not found")

/-- `GET /users/me/site`. -/
def getSite (userId : String) : SiteMethod SiteDto := do
  match ← (awaitSite (.siteFindUnique userId)).statements with
  | none => throw (userNotFound userId)
  | some user => return toSiteDto user

/-- `PUT /users/me/site`. -/
def updateSite (userId : String) (dto : SiteDto) : SiteMethod SiteDto := do
  let user ← (awaitSite (.userFindUnique userId)).statements
  if !user then throw (userNotFound userId)
  else
    match ← (replaceSite userId dto).transaction with
    | none => throw .typeError
    | some updated => return toSiteDto updated

end SiteService

/-! ## The database -/

/-- The outcome of one request, as far as the database does not determine it : the orders of
the rows of equal rank. -/
structure SiteChoice where
  fault : Fault := .none
  socialOrder : ℕ := 0
  linkOrder : ℕ := 0
  featuredOrder : ℕ := 0
  deriving DecidableEq, Repr

namespace SiteTables

/-- `orderBy: { sortOrder: 'asc' }`. -/
def orderBySort {α : Type} (sortOrder : α → ℕ) (rows : List α) : List α :=
  rows.insertionSort fun a b => sortOrder a ≤ sortOrder b

/-- `user.findUnique` with the mini-site. -/
def userSite (id : String) (c : SiteChoice) (t : SiteTables) : Option UserSite :=
  (t.users.lookup id).map fun profile =>
    { profile
      socialLinks := reorder c.socialOrder (t.socialLinks.filter (·.userId = id))
      customLinks := orderBySort (·.sortOrder)
        (reorder c.linkOrder (t.customLinks.filter (·.userId = id)))
      featuredProducts := orderBySort (·.sortOrder)
        (reorder c.featuredOrder (t.featuredProducts.filter (·.userId = id))) }

end SiteTables

/-- Lift the effect of a write. -/
def SiteDatabase.write (w : SiteDatabase) :
    Except DbError SiteTables → Except SiteError Unit × SiteDatabase
  | .ok site => (.ok (), { w with site })
  | .error e => (.error (.database e), w)

/-- What a statement answers and changes when no fault hits it. -/
def siteEffect : (r : SiteRequest) → SiteChoice → SiteDatabase →
    Except SiteError r.Ans × SiteDatabase
  | .userFindUnique id, _, w => (.ok (w.site.users.lookup id).isSome, w)
  | .siteFindUnique id, c, w => (.ok (w.site.userSite id c), w)
  | .userUpdate id data, _, w => w.write (w.site.updateUser id data)
  | .socialLinkDeleteMany userId, _, w => w.write (.ok (w.site.deleteSocialLinks userId))
  | .socialLinkCreateMany rows, _, w => w.write (w.site.createSocialLinks rows)
  | .customLinkDeleteMany userId, _, w => w.write (.ok (w.site.deleteCustomLinks userId))
  | .customLinkCreateMany rows, _, w => w.write (w.site.createCustomLinks rows)
  | .featuredProductDeleteMany userId, _, w =>
    w.write (.ok (w.site.deleteFeaturedProducts userId))
  | .featuredProductCreateMany rows, _, w =>
    w.write (w.site.createFeaturedProducts w.db rows)
  | .productFindFirst id creatorId, _, w =>
    (.ok ((w.db.products.lookup id).any (·.creatorId = creatorId)), w)

/-- Statements with their faults. -/
def siteExec (r : SiteRequest) (c : SiteChoice) (w : SiteDatabase) :
    Except SiteError r.Ans × SiteDatabase :=
  match c.fault with
  | .none => siteEffect r c w
  | .lost => (.error (.database .unavailable), w)
  | .unacked => (.error (.database .unavailable), (siteEffect r c w).2)

/-- The statements of the site service. The outside leaves the database alone. -/
def siteStatements : Machine sites SiteDatabase SiteChoice Empty where
  exec := siteExec
  log e _ := e.elim
  env e _ := e.elim

/-- The site service, with transactions. A commit that throws is rolled back. -/
def siteMachine : Machine sites.transactional (Staged SiteDatabase) SiteChoice Empty :=
  siteStatements.staged (fun c => c.fault ≠ .none) (.database .unavailable)

/-! ## A mini-site to run on -/

/-- The profile of `alice`. -/
def demoProfile : Profile :=
  ⟨"Alice", some "alice", some "presets", none, none⟩

/-- The user `alice` with a product, a handle and a link. -/
def demoSite : SiteDatabase where
  db := (demoWorld [] []).db
  site :=
    { users := AList.singleton "alice" demoProfile
      socialLinks := [⟨"alice", "TIKTOK", "alice.tok"⟩]
      customLinks := [⟨"alice", "shop", "https://shop", 0⟩]
      featuredProducts := []
      usernames := by
        intro id id' p p' name hp hp' _ _
        have hid := AList.mem_lookup_iff.1 hp
        have hid' := AList.mem_lookup_iff.1 hp'
        simp only [AList.singleton_entries, List.mem_singleton, Sigma.mk.injEq] at hid hid'
        exact hid.1.trans hid'.1.symm
      platforms := List.nodup_singleton _
      featured := List.nodup_nil }

/-- A body with an empty handle, two links and a product. -/
def demoSiteDto : SiteDto where
  displayName := "Alice B."
  username := "alice.b"
  bio := none
  avatarEmoji := none
  accent := some "#FF3BFF"
  socials := some { x := some "alice", youtube := some "" }
  links := [⟨"guide", "https://guide"⟩, ⟨"shop", "https://shop"⟩]
  featuredProductIds := ["product"]

end Kreav
