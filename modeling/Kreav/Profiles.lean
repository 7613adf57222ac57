import Kreav.SiteRoundTrip
import Kreav.WalletHistory

/-!
# Profiles and public pages

`backend/src/users/users.service.ts`. A user reads its profile and changes some of its columns,
anybody asks whether a username is free, and `getPublicProfile` puts the public page of a
username together : the columns of its user, the rows of its mini-site and its products, those
that it features and still sells or else the newest ones.

The methods are programs over `users`, on the tables of `UserWorld`. What the site service
commits, new users and changes of the products are steps of the outside.
-/

open Async

namespace Kreav

/-! ## Tables -/

/-- The columns of a user that the mini-site has no part in. -/
structure Account where
  email : String
  country : Option String
  role : String
  createdAt : Timestamp
  deriving DecidableEq, Repr

/-- The products, with the times at which they were created. -/
structure Catalog where
  db : Database
  createdAt : String → Timestamp

/-- The tables, and what the catalog has been so far. -/
structure UserWorld where
  catalog : Catalog
  site : SiteTables
  accounts : String → Account
  catalogs : List Catalog

/-- A row of `users`. -/
structure UserRow where
  id : String
  profile : Profile
  account : Account
  deriving DecidableEq, Repr

/-- A user as the public page includes it. A featured product is one of the catalog. -/
structure PublicUser where
  id : String
  site : UserSite
  country : Option String
  featured : List (Option (String × Product))
  deriving DecidableEq, Repr

/-! ## Bodies -/

/-- The body of `PATCH /users/me`. A field that is absent is `none`, and one that is null is
`some none`. -/
structure UpdateProfileDto where
  name : Option (Option String) := none
  username : Option (Option String) := none
  country : Option (Option String) := none
  bio : Option (Option String) := none
  avatarEmoji : Option (Option String) := none
  accent : Option (Option String) := none
  deriving DecidableEq, Repr

/-- What `getProfile` and `updateProfile` return. -/
structure ProfileResponse where
  id : String
  email : String
  name : String
  username : Option String
  country : Option String
  bio : Option String
  avatarEmoji : Option String
  accent : Option String
  role : String
  createdAt : String
  deriving DecidableEq, Repr

/-- A product on a public page. -/
structure PublicProduct where
  id : String
  title : String
  priceUsd : String
  deriving DecidableEq, Repr

/-- A public page. -/
structure PublicProfile where
  username : String
  displayName : String
  bio : Option String
  country : Option String
  avatarEmoji : Option String
  accent : Option String
  products : List PublicProduct
  socials : SocialsDto
  links : List CustomLinkDto
  deriving DecidableEq, Repr

/-- The columns after an update of those that are given. -/
def UpdateProfileDto.applyTo (data : UpdateProfileDto) (p : Profile) : Profile where
  name := data.name.join.getD p.name
  username := data.username.getD p.username
  bio := data.bio.getD p.bio
  avatarEmoji := data.avatarEmoji.getD p.avatarEmoji
  accent := data.accent.getD p.accent

/-! ## Requests -/

/-- The errors of the service. -/
inductive UserError
  | notFound (message : String)
  | conflict (message : String)
  | database (e : DbError)
  deriving DecidableEq, Repr

/-- What the service asks of the database. -/
inductive UserRequest
  | userFindUnique (id : String)
  /-- `user.findUnique` by the username : whether there is one. -/
  | usernameFindUnique (username : String)
  | userUpdate (id : String) (data : UpdateProfileDto)
  /-- `user.findUnique` by the username, with the mini-site and the featured products. -/
  | publicFindUnique (username : String)
  /-- `product.findMany` of the active products of a creator, six of them, newest first. -/
  | productFindMany (creatorId : String)
  deriving DecidableEq, Repr

/-- The answers. -/
def UserRequest.Ans : UserRequest → Type
  | .userFindUnique _ => Option UserRow
  | .usernameFindUnique _ => Bool
  | .userUpdate _ _ => UserRow
  | .publicFindUnique _ => Option PublicUser
  | .productFindMany _ => List (String × Product)

/-- The statements of the users service. It emits no events. -/
abbrev users : Sig where
  Req := UserRequest
  Ans := UserRequest.Ans
  Event := Empty
  Error := UserError

/-- A method of the service. -/
abbrev UserMethod (α : Type) :=
  Prog users α

/-- Await a request. -/
abbrev awaitUser (r : UserRequest) : UserMethod r.Ans :=
  Prog.ask (S := users) r

/-! ## The service -/

namespace UsersService

/-- There is no user with the id. -/
def userNotFound (userId : String) : UserError :=
  .notFound ("User " ++ userId ++ " not found")

/-- There is no creator with the username. -/
def creatorNotFound (username : String) : UserError :=
  .notFound ("Creator \"" ++ username ++ "\" not found")

/-- Another user has the username. -/
def usernameTaken (username : String) : UserError :=
  .conflict ("Username \"" ++ username ++ "\" is already taken")

/-- A row as a profile. -/
def toProfileResponse (user : UserRow) : ProfileResponse where
  id := user.id
  email := user.account.email
  name := user.profile.name
  username := user.profile.username
  country := user.account.country
  bio := user.profile.bio
  avatarEmoji := user.profile.avatarEmoji
  accent := user.profile.accent
  role := user.account.role
  createdAt := user.account.createdAt.toISOString

/-- `GET /users/me`. -/
def getProfile (userId : String) : UserMethod ProfileResponse := do
  match ← awaitUser (.userFindUnique userId) with
  | none => throw (userNotFound userId)
  | some user => return toProfileResponse user

/-- The username that an update asks for, if it is a new one. -/
def newUsername (user : UserRow) (dto : UpdateProfileDto) : Option String :=
  dto.username.join.filter fun username => username ≠ "" ∧ some username ≠ user.profile.username

/-- If changing username, check uniqueness. -/
def checkUnique (user : UserRow) (dto : UpdateProfileDto) : UserMethod Unit :=
  match newUsername user dto with
  | none => return ()
  | some username => do
    let existing : Bool ← awaitUser (.usernameFindUnique username)
    if existing then throw (usernameTaken username) else return ()

/-- `PATCH /users/me`. -/
def updateProfile (userId : String) (dto : UpdateProfileDto) : UserMethod ProfileResponse := do
  match ← awaitUser (.userFindUnique userId) with
  | none => throw (userNotFound userId)
  | some user => do
    checkUnique user dto
    let updated : UserRow ← awaitUser (.userUpdate userId dto)
    return toProfileResponse updated

/-- `GET /users/check-username`, whether the username is available. -/
def checkUsername (username : String) : UserMethod Bool := do
  let existing : Bool ← awaitUser (.usernameFindUnique username)
  return !existing

/-- A row as a product of a page. -/
def toPublicProduct (p : String × Product) : PublicProduct where
  id := p.1
  title := p.2.title
  priceUsd := toFixed2 p.2.priceUsd.cents

/-- The featured products that are active, in the chosen order. -/
def featuredProducts (featured : List (Option (String × Product))) : List PublicProduct :=
  (featured.filterMap fun p => p.filter (·.2.status = .active)).map toPublicProduct

/-- The page of a user, with the products to show. -/
def publicProfile (user : PublicUser) (products : List PublicProduct) : PublicProfile where
  username := user.site.profile.username.getD ""
  displayName := user.site.profile.name
  bio := user.site.profile.bio
  country := user.country
  avatarEmoji := user.site.profile.avatarEmoji
  accent := user.site.profile.accent
  products := products
  socials :=
    { instagram := SiteService.handleOf "instagram" user.site.socialLinks
      x := SiteService.handleOf "x" user.site.socialLinks
      tiktok := SiteService.handleOf "tiktok" user.site.socialLinks
      youtube := SiteService.handleOf "youtube" user.site.socialLinks }
  links := user.site.customLinks.map fun cl => ⟨cl.label, cl.url⟩

/-- `GET /users/:username/profile`. -/
def getPublicProfile (username : String) : UserMethod PublicProfile := do
  match ← awaitUser (.publicFindUnique username) with
  | none => throw (creatorNotFound username)
  | some user =>
    match featuredProducts user.featured with
    | [] =>
      let recent : List (String × Product) ← awaitUser (.productFindMany user.id)
      return publicProfile user (recent.map toPublicProduct)
    | products => return publicProfile user products

end UsersService

/-- A request to the service. -/
inductive UserCall
  | getProfile (userId : String)
  | updateProfile (userId : String) (dto : UpdateProfileDto)
  | checkUsername (username : String)
  | getPublicProfile (username : String)
  deriving DecidableEq, Repr

/-- What a call is answered. -/
inductive UserAnswer
  | profile (response : ProfileResponse)
  | availability (username : String) (available : Bool)
  | page (page : PublicProfile)
  deriving DecidableEq, Repr

/-- The method of a call. -/
def UserCall.method : UserCall → UserMethod UserAnswer
  | .getProfile userId => (UsersService.getProfile userId).bind fun p => .ret (.profile p)
  | .updateProfile userId dto =>
    (UsersService.updateProfile userId dto).bind fun p => .ret (.profile p)
  | .checkUsername username =>
    (UsersService.checkUsername username).bind fun b => .ret (.availability username b)
  | .getPublicProfile username =>
    (UsersService.getPublicProfile username).bind fun p => .ret (.page p)

/-! ## The database -/

/-- The outcome of one request, with the orders of rows of equal rank. -/
structure UserChoice extends SiteChoice where
  productOrder : ℕ := 0
  deriving DecidableEq, Repr

/-- What goes on besides the requests. -/
inductive UserStep
  /-- `PUT /users/me/site`. -/
  | updateSite (userId : String) (dto : SiteDto) (outcomes : ℕ → SiteChoice)
  /-- A new user, without a username. -/
  | register (id name : String) (account : Account)
  | catalog (catalog : Catalog)

/-- `user.create`, with an id that is new. -/
def SiteTables.createUser (id name : String) (t : SiteTables) : SiteTables :=
  if h : (t.users.lookup id).isSome then t
  else { t with
    users := t.users.insert id ⟨name, none, none, none, none⟩
    usernames := by
      intro a b p q n ha hb hp hq
      have hne : ∀ {c r}, (t.users.insert id ⟨name, none, none, none, none⟩).lookup c = some r →
          r.username = some n → c ≠ id := by
        rintro c r hc hr rfl
        rw [AList.lookup_insert, Option.some_inj] at hc
        subst hc
        cases hr
      rw [AList.lookup_insert_ne (hne ha hp)] at ha
      rw [AList.lookup_insert_ne (hne hb hq)] at hb
      exact t.usernames a b p q n ha hb hp hq }

namespace UserWorld

/-- The tables that the mini-site is stored in. -/
def siteDatabase (w : UserWorld) : SiteDatabase :=
  ⟨w.catalog.db, w.site⟩

/-- `user.findUnique`. -/
def user (id : String) (w : UserWorld) : Option UserRow :=
  (w.site.users.lookup id).map fun profile => ⟨id, profile, w.accounts id⟩

/-- The user that has the username. -/
def holder (username : String) (w : UserWorld) : Option String :=
  (w.site.users.entries.find? (·.2.username = some username)).map (·.1)

/-- `user.update` of the columns that are given. The name cannot be null. -/
def updateUser (id : String) (data : UpdateProfileDto) (w : UserWorld) :
    Except UserError UserRow × UserWorld :=
  match w.site.users.lookup id with
  | none => (.error (.database .recordNotFound), w)
  | some p =>
    if data.name = some none then (.error (.database .nullViolation), w)
    else
      match w.site.updateUser id (data.applyTo p) with
      | .error e => (.error (.database e), w)
      | .ok site =>
        let account : Account :=
          { w.accounts id with country := data.country.getD (w.accounts id).country }
        (.ok ⟨id, data.applyTo p, account⟩,
          { w with site, accounts := Function.update w.accounts id account })

/-- `user.findUnique` by the username, with what the public page includes. -/
def publicUser (username : String) (c : SiteChoice) (w : UserWorld) : Option PublicUser :=
  (w.holder username).bind fun id => (w.site.userSite id c).map fun site =>
    { id
      site
      country := (w.accounts id).country
      featured := site.featuredProducts.map fun f =>
        (w.catalog.db.products.lookup f.productId).map fun p => (f.productId, p) }

end UserWorld

/-- The newest active products of a creator, those of one time in the `n`-th arrangement. -/
def Catalog.newest (creatorId : String) (n : ℕ) (c : Catalog) : List (String × Product) :=
  (orderByNewest (fun p => c.createdAt p.1) (reorder n ((c.db.products.entries.map fun e =>
    (e.1, e.2)).filter fun p => p.2.creatorId = creatorId ∧ p.2.status = .active))).take 6

/-- What a request answers and changes when no fault hits it. -/
def userEffect : (r : UserRequest) → UserChoice → UserWorld → Except UserError r.Ans × UserWorld
  | .userFindUnique id, _, w => (.ok (w.user id), w)
  | .usernameFindUnique username, _, w => (.ok (w.holder username).isSome, w)
  | .userUpdate id data, _, w => w.updateUser id data
  | .publicFindUnique username, c, w => (.ok (w.publicUser username c.toSiteChoice), w)
  | .productFindMany creatorId, c, w => (.ok (w.catalog.newest creatorId c.productOrder), w)

/-- Requests with their faults. -/
def userExec (r : UserRequest) (c : UserChoice) (w : UserWorld) :
    Except UserError r.Ans × UserWorld :=
  match c.fault with
  | .none => userEffect r c w
  | .lost => (.error (.database .unavailable), w)
  | .unacked => (.error (.database .unavailable), (userEffect r c w).2)

/-- What the site service answers to an update, and the tables it commits. -/
def UserWorld.updateSite (userId : String) (dto : SiteDto) (outcomes : ℕ → SiteChoice)
    (w : UserWorld) : Except SiteError SiteDto × SiteTables :=
  let x := (SiteService.updateSite userId dto).eval siteMachine outcomes (.closed w.siteDatabase)
  (x.1, x.2.2.committed.site)

/-- What other services do in between. -/
def UserWorld.env : UserStep → UserWorld → UserWorld
  | .updateSite userId dto outcomes, w =>
    { w with site := (w.updateSite userId dto outcomes).2 }
  | .register id name account, w =>
    if (w.site.users.lookup id).isSome then w
    else { w with
      site := w.site.createUser id name
      accounts := Function.update w.accounts id account }
  | .catalog catalog, w => { w with catalog, catalogs := w.catalogs ++ [catalog] }

/-- The users service. -/
def usersMachine : Machine users UserWorld UserChoice UserStep where
  exec := userExec
  log e _ := e.elim
  env := UserWorld.env

end Kreav
