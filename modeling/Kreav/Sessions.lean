import Kreav.Backend
import Kreav.Challenges
import Kreav.Lib.Arrivals

/-!
# Sessions

`backend/src/auth/auth.service.ts` with its controller and `jwt-auth.guard.ts`. A session is a
token. `register` and `verify` sign one, the guard reads it from the header of a request, and
`logout` remembers its id as revoked. The revoked ids and the used challenges are in the memory
of the process, and a restart loses them.

The methods are programs over `auth`, on the tables of `AuthTables`. The JWT library is the
parameter `Jwt`.
-/

open Async

namespace Kreav

namespace AuthService

/-! ## Tables -/

/-- The users and the wallets, with their unique indexes and their foreign key. -/
structure AuthTables where
  users : List User
  wallets : List Wallet
  ids : (users.map (·.id)).Nodup
  emails : (users.map (·.email)).Nodup
  addresses : (wallets.map (·.walletAddress)).Nodup
  creators : ∀ w ∈ wallets, w.creatorId ∈ users.map (·.id)

namespace AuthTables

/-- `user.create`. -/
def createUser (user : User) (t : AuthTables) : Except DbError AuthTables :=
  if h : user.id ∉ t.users.map (·.id) ∧ user.email ∉ t.users.map (·.email) then
    .ok
      { t with
        users := t.users ++ [user]
        ids := nodup_map_concat t.ids h.1
        emails := nodup_map_concat t.emails h.2
        creators := fun w hw => by
          rw [List.map_append]
          exact List.mem_append_left _ (t.creators w hw) }
  else .error .uniqueViolation

/-- `user.update` of the name, the only column of these that a profile update sets. -/
def rename (id name : String) (t : AuthTables) : AuthTables :=
  have hcolumn : ∀ f : User → String, (∀ u : User, f { u with name } = f u) →
      (t.users.map fun u => if u.id = id then { u with name } else u).map f = t.users.map f := by
    intro f hf
    rw [List.map_map]
    refine List.map_congr_left fun u _ => ?_
    simp only [Function.comp]
    split
    · exact hf u
    · rfl
  { t with
    users := t.users.map fun u => if u.id = id then { u with name } else u
    ids := (hcolumn (·.id) fun _ => rfl).symm ▸ t.ids
    emails := (hcolumn (·.email) fun _ => rfl).symm ▸ t.emails
    creators := fun w hw => (hcolumn (·.id) fun _ => rfl).symm ▸ t.creators w hw }

/-- `wallet.create`, when its creator exists and its address is not taken. -/
def connect (wallet : Wallet) (t : AuthTables) : AuthTables :=
  if h : wallet.creatorId ∈ t.users.map (·.id) ∧
      wallet.walletAddress ∉ t.wallets.map (·.walletAddress) then
    { t with
      wallets := t.wallets ++ [wallet]
      addresses := nodup_map_concat t.addresses h.2
      creators := fun w hw => (List.mem_append.1 hw).elim (t.creators w) fun hw =>
        List.mem_singleton.1 hw ▸ h.1 }
  else t

/-- `wallet.findFirst` with its creator. -/
def findWallet (walletAddress : String) (t : AuthTables) : Option User :=
  (t.wallets.find? (·.walletAddress = walletAddress)).bind fun w =>
    t.users.find? (·.id = w.creatorId)

end AuthTables

/-! ## Tokens -/

/-- `expiresIn: '7d'`, in seconds. -/
def expiresInS : ℕ :=
  7 * 24 * 60 * 60

/-- What the guard reads from a token. -/
structure JwtPayload where
  sub : String
  role : String
  email : Option String
  jti : Option String
  deriving DecidableEq, Repr

/-- The identity that the guard attaches to a request. -/
structure AuthUser where
  userId : String
  role : String
  email : Option String
  jti : Option String
  deriving DecidableEq, Repr

/-- What the guard reads from the text of a token. -/
def Token.payload (t : Token) : JwtPayload :=
  ⟨t.sub, t.role, some t.email, some t.jti⟩

/-- The identity that the guard attaches for a payload. -/
def JwtPayload.user (p : JwtPayload) : AuthUser :=
  ⟨p.sub, p.role, p.email, p.jti⟩

/-- The JWT library with the secret of the service : the text of a token that is signed at a
time, in milliseconds, and the payload of a text that is valid at a time. The secret is the one
of `JWT_SECRET`, which is set and the same after a restart. -/
structure Jwt where
  sign : Token → ℕ → String
  verify : String → ℕ → Option JwtPayload

/-- A token that is signed at the time `iat` is valid for seven days, to the second. -/
structure Jwt.Lawful (jwt : Jwt) : Prop where
  verify_sign : ∀ t iat now, jwt.verify (jwt.sign t iat) now =
    if now / 1000 < iat / 1000 + expiresInS then some t.payload else none
  sign_ne : ∀ t iat, jwt.sign t iat ≠ ""

/-- The token of an `authorization` header. An empty one is none. -/
def bearerToken (authorization : Option String) : Option String :=
  authorization.bind fun header =>
    if "Bearer ".toList.isPrefixOf header.toList ∧ header.toList.drop 7 ≠ [] then
      some (String.ofList (header.toList.drop 7))
    else none

/-- The errors of the authentication. -/
inductive AuthError
  | conflict (message : String)
  | unauthorized (message : String)
  | database (e : DbError)
  deriving DecidableEq, Repr

/-- `isTokenRevoked` of a payload that has an id. -/
def JwtPayload.Revoked (revokedTokens : List String) (p : JwtPayload) : Prop :=
  ∃ jti ∈ p.jti, jti ≠ "" ∧ jti ∈ revokedTokens

instance (revokedTokens : List String) (p : JwtPayload) : Decidable (p.Revoked revokedTokens) :=
  inferInstanceAs (Decidable (∃ jti ∈ _, _))

/-- The guard, for a header at the time `now`. -/
def canActivate (jwt : Jwt) (authorization : Option String) (now : ℕ)
    (revokedTokens : List String) : Except AuthError AuthUser :=
  match bearerToken authorization with
  | none => .error (.unauthorized "Missing bearer token")
  | some token =>
    match jwt.verify token now with
    | none => .error (.unauthorized "Invalid or expired token")
    | some payload =>
      if payload.Revoked revokedTokens then .error (.unauthorized "Token has been revoked")
      else .ok payload.user

/-- `verifyChallenge` up to the query of the wallet. -/
def takeChallenge (sdk : WebAuth) (signedXdr : String) (now : ℕ)
    (usedChallenges : UsedChallenges) : Except String ChallengeTx × UsedChallenges :=
  let nonce := sdk.sha256 signedXdr
  if nonce ∈ usedChallenges then (.error "Challenge already used", usedChallenges)
  else
    let usedChallenges := usedChallenges.insert nonce (now + challengeTimeoutS * 1000)
    match sdk.readChallengeTx signedXdr now with
    | none => (.error "Challenge verification failed", usedChallenges)
    | some challenge => (.ok challenge, usedChallenges)

/-- With the wallet at hand, `verifyChallenge` is `takeChallenge` and the token of the
wallet's user. -/
theorem verifyChallenge_eq (sdk : WebAuth) (signedXdr : String)
    (findWallet : String → Option User) (jti : String) (now : ℕ) (used : UsedChallenges) :
    verifyChallenge sdk signedXdr findWallet jti now used =
      ((takeChallenge sdk signedXdr now used).1.bind fun challenge =>
        (findWallet challenge.clientAccountID).elim
          (.error "Wallet is not connected to any Kreav account")
          fun user => .ok ⟨signToken user jti, user⟩,
        (takeChallenge sdk signedXdr now used).2) := by
  unfold verifyChallenge takeChallenge
  by_cases hused : sdk.sha256 signedXdr ∈ used
  · simp [hused, Except.bind]
  · simp only [if_neg hused]
    cases sdk.readChallengeTx signedXdr now with
    | none => rfl
    | some challenge => cases h : findWallet challenge.clientAccountID <;> simp [Except.bind, h]

/-! ## Requests -/

/-- The body of a registration. -/
structure RegisterDto where
  email : String
  name : String
  role : String
  deriving DecidableEq, Repr

/-- What the service asks of the database and of its own state. The guard and what runs between
two awaits are one request each. -/
inductive AuthRequest
  /-- `user.findUnique` by the email : whether there is one. -/
  | userFindUnique (email : String)
  | userCreate (data : RegisterDto)
  /-- `verifyChallenge` up to its query. -/
  | takeChallenge (signedXdr : String)
  /-- `wallet.findFirst` with its creator. -/
  | walletFindFirst (walletAddress : String)
  /-- `jwt.sign` with a random id. -/
  | sign (sub role email : String)
  | canActivate (authorization : Option String)
  | revokeToken (jti : String)
  deriving DecidableEq, Repr

/-- The answers. -/
def AuthRequest.Ans : AuthRequest → Type
  | .userFindUnique _ => Bool
  | .userCreate _ => User
  | .takeChallenge _ => ChallengeTx
  | .walletFindFirst _ => Option User
  | .sign _ _ _ => String
  | .canActivate _ => AuthUser
  | .revokeToken _ => Unit

/-- What a method has done when it returns. -/
inductive AuthEvent
  | registered (user : User)
  | loggedOut (user : AuthUser)

/-- The requests of the service. -/
abbrev auth : Sig where
  Req := AuthRequest
  Ans := AuthRequest.Ans
  Event := AuthEvent
  Error := AuthError

/-- A method of the service. -/
abbrev AuthMethod (α : Type) :=
  Prog auth α

/-- Await a request. -/
abbrev awaitAuth (r : AuthRequest) : AuthMethod r.Ans :=
  Prog.ask (S := auth) r

/-! ## The service -/

/-- Another user has the email. -/
def emailTaken (email : String) : AuthError :=
  .conflict ("Email " ++ email ++ " is already registered")

/-- `POST /auth/register`. -/
def register (dto : RegisterDto) : AuthMethod (User × String) := do
  let existing : Bool ← awaitAuth (.userFindUnique dto.email)
  if existing then throw (emailTaken dto.email)
  else
    let user : User ← awaitAuth (.userCreate dto)
    let token : String ← awaitAuth (.sign user.id user.role user.email)
    Prog.signal (S := auth) (.registered user)
    return (user, token)

/-- `GET /auth/wallet-status`. -/
def walletStatus (walletAddress : String) : AuthMethod Bool := do
  let wallet : Option User ← awaitAuth (.walletFindFirst walletAddress)
  return wallet.isSome

/-- `POST /auth/verify`. -/
def verify (signedXdr : String) : AuthMethod (User × String) := do
  let challenge : ChallengeTx ← awaitAuth (.takeChallenge signedXdr)
  match ← awaitAuth (.walletFindFirst challenge.clientAccountID) with
  | none => throw (.unauthorized "Wallet is not connected to any Kreav account")
  | some user =>
    let token : String ← awaitAuth (.sign user.id user.role user.email)
    return (user, token)

/-- A request to a guarded route, with its handler. -/
def guarded {α : Type} (authorization : Option String) (handler : AuthUser → AuthMethod α) :
    AuthMethod α := do
  let user : AuthUser ← awaitAuth (.canActivate authorization)
  handler user

/-- The handler of `POST /auth/logout`. -/
def logout (user : AuthUser) : AuthMethod Bool := do
  match user.jti.filter (· ≠ "") with
  | none => return true
  | some jti =>
    awaitAuth (.revokeToken jti)
    Prog.signal (S := auth) (.loggedOut user)
    return true

/-- A request to the service. The handler of another guarded route gets the identity. -/
inductive AuthCall
  | register (dto : RegisterDto)
  | walletStatus (walletAddress : String)
  | verify (signedXdr : String)
  | guarded (authorization : Option String)
  | logout (authorization : Option String)
  deriving DecidableEq, Repr

/-- The method of a call. -/
def AuthCall.method : AuthCall → AuthMethod Unit
  | .register dto => (AuthService.register dto).bind fun _ => .ret ()
  | .walletStatus walletAddress => (AuthService.walletStatus walletAddress).bind fun _ => .ret ()
  | .verify signedXdr => (AuthService.verify signedXdr).bind fun _ => .ret ()
  | .guarded authorization => AuthService.guarded authorization fun _ => .ret ()
  | .logout authorization =>
    (AuthService.guarded authorization AuthService.logout).bind fun _ => .ret ()

/-! ## The process and the database -/

/-- A token with the time at which it was signed. -/
structure Issue where
  token : Token
  iat : ℕ
  deriving DecidableEq, Repr

/-- An identity with the time at which the guard attached it. -/
structure Admission where
  user : AuthUser
  time : ℕ
  deriving DecidableEq, Repr

/-- What has happened : the users created, the challenges taken, the tokens signed, the
identities attached and the registrations answered, and the logouts since the last restart. -/
structure AuthHistory where
  created : List User := []
  taken : List ChallengeTx := []
  issued : List Issue := []
  admitted : List Admission := []
  registered : List User := []
  loggedOut : List AuthUser := []

/-- The tables, the clock, the memory of the process, and what has happened. -/
structure AuthWorld where
  tables : AuthTables
  now : ℕ
  usedChallenges : UsedChallenges
  revokedTokens : List String
  history : AuthHistory

/-- The outcome of one request : a fault of the database, and the random ids. -/
structure AuthChoice where
  fault : Fault := .none
  uuid : String := ""
  deriving DecidableEq, Repr

/-- What goes on besides the requests. A restart starts with an empty memory. -/
inductive AuthStep
  | wait (ms : ℕ)
  | timer (nonce : String)
  | restart
  | rename (id name : String)
  | connect (wallet : Wallet)

namespace AuthWorld

/-- A user is stored. -/
def store (user : User) (tables : AuthTables) (w : AuthWorld) : AuthWorld :=
  { w with tables, history := { w.history with created := w.history.created ++ [user] } }

/-- `user.create`. -/
def createUser (data : RegisterDto) (id : String) (w : AuthWorld) :
    Except AuthError User × AuthWorld :=
  let user : User := ⟨id, data.email, data.name, data.role, w.now⟩
  match w.tables.createUser user with
  | .error e => (.error (.database e), w)
  | .ok tables => (.ok user, w.store user tables)

/-- A challenge is taken. -/
def accept (challenge : ChallengeTx) (usedChallenges : UsedChallenges) (w : AuthWorld) :
    AuthWorld :=
  { w with usedChallenges, history := { w.history with taken := w.history.taken ++ [challenge] } }

/-- A challenge is taken, if it is a new one with its signature. -/
def take (sdk : WebAuth) (signedXdr : String) (w : AuthWorld) :
    Except AuthError ChallengeTx × AuthWorld :=
  match AuthService.takeChallenge sdk signedXdr w.now w.usedChallenges with
  | (.error message, usedChallenges) => (.error (.unauthorized message), { w with usedChallenges })
  | (.ok challenge, usedChallenges) => (.ok challenge, w.accept challenge usedChallenges)

/-- A token was signed. -/
def issue (token : Token) (w : AuthWorld) : AuthWorld :=
  { w with history := { w.history with issued := w.history.issued ++ [⟨token, w.now⟩] } }

/-- The guard let a user in. -/
def letIn (user : AuthUser) (w : AuthWorld) : AuthWorld :=
  { w with history := { w.history with admitted := w.history.admitted ++ [⟨user, w.now⟩] } }

/-- `revokeToken`. -/
def revoke (jti : String) (w : AuthWorld) : AuthWorld :=
  { w with revokedTokens := jti :: w.revokedTokens }

/-- The guard, for a header. -/
def activate (jwt : Jwt) (authorization : Option String) (w : AuthWorld) :
    Except AuthError AuthUser × AuthWorld :=
  match canActivate jwt authorization w.now w.revokedTokens with
  | .error e => (.error e, w)
  | .ok user => (.ok user, w.letIn user)

/-- A statement that may be lost, or performed without an answer. -/
def statement {α : Type} (c : AuthChoice) (w : AuthWorld) (x : Except AuthError α × AuthWorld) :
    Except AuthError α × AuthWorld :=
  match c.fault with
  | .none => x
  | .lost => (.error (.database .unavailable), w)
  | .unacked => (.error (.database .unavailable), x.2)

end AuthWorld

/-- The requests of the service. -/
def authExec (sdk : WebAuth) (jwt : Jwt) : (r : AuthRequest) → AuthChoice → AuthWorld →
    Except AuthError r.Ans × AuthWorld
  | .userFindUnique email, c, w => w.statement c (.ok (w.tables.users.any (·.email = email)), w)
  | .userCreate data, c, w => w.statement c (w.createUser data c.uuid)
  | .takeChallenge signedXdr, _, w => w.take sdk signedXdr
  | .walletFindFirst walletAddress, c, w =>
    w.statement c (.ok (w.tables.findWallet walletAddress), w)
  | .sign sub role email, c, w =>
    (.ok (jwt.sign ⟨sub, role, email, c.uuid⟩ w.now), w.issue ⟨sub, role, email, c.uuid⟩)
  | .canActivate authorization, _, w => w.activate jwt authorization
  | .revokeToken jti, _, w => (.ok (), w.revoke jti)

/-- What a method answered. -/
def AuthWorld.log : AuthEvent → AuthWorld → AuthWorld
  | .registered user, w =>
    { w with history := { w.history with registered := w.history.registered ++ [user] } }
  | .loggedOut user, w =>
    { w with history := { w.history with loggedOut := w.history.loggedOut ++ [user] } }

/-- What happens between two requests. -/
def AuthWorld.env : AuthStep → AuthWorld → AuthWorld
  | .wait ms, w => { w with now := w.now + ms }
  | .timer nonce, w =>
    if ∃ due ∈ w.usedChallenges.lookup nonce, due ≤ w.now then
      { w with usedChallenges := w.usedChallenges.erase nonce }
    else w
  | .restart, w =>
    { w with usedChallenges := ∅, revokedTokens := []
             history := { w.history with loggedOut := [] } }
  | .rename id name, w => { w with tables := w.tables.rename id name }
  | .connect wallet, w => { w with tables := w.tables.connect wallet }

/-- The requests on the state of the service. -/
def authMachine (sdk : WebAuth) (jwt : Jwt) : Machine auth AuthWorld AuthChoice AuthStep where
  exec := authExec sdk jwt
  log := .log
  env := .env

end AuthService

end Kreav
