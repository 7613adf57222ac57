import Kreav.Lib.Clients
import Kreav.Sessions
import Kreav.Site

/-!
# The session of a browser

`frontend/src/lib/api/session.ts` and `client.ts` with the pages that sign in and out : the
navigation bar, the login and signup pages, the settings and the page that connects a wallet.
The browser keeps the token of its session and the user of it in its storage. Each request
carries the token, each page shows the user, and an answer with status 401 clears the storage.

The pages are programs over `pages`, any number of them at once in one tab. Everything between
two awaits runs without interruption, so the writes up to the next `await` are one request
(`sync`). The backend is the service of `Kreav.Sessions`, which serves other clients too. An
answer of it comes at any time, or it is lost.
-/

open Async

namespace Kreav

namespace Browser

open AuthService

/-! ## The storage -/

/-- The items that the browser stores. -/
inductive Key
  | token
  | userId
  | walletAddress
  | username
  deriving DecidableEq, Repr

/-- `localStorage`. -/
abbrev Storage :=
  Key → Option String

/-- A write of one item, `none` to remove it. -/
abbrev Write :=
  Key × Option String

/-- The token of the session. -/
def setToken (token : Option String) : Write :=
  (.token, token)

/-- The id of the user. -/
def setUserId (id : String) : Write :=
  (.userId, some id)

/-- The address of the connected wallet. -/
def setWalletAddress (address : Option String) : Write :=
  (.walletAddress, address)

/-- The name that the navigation bar shows. -/
def setUsername (username : Option String) : Write :=
  (.username, username)

/-- The items of a session, all removed. -/
def clearSession : List Write :=
  [(.token, none), (.userId, none), (.walletAddress, none), (.username, none)]

/-- The storage after writes, in order. -/
def Storage.write (writes : List Write) (s : Storage) : Storage :=
  writes.foldl (fun s x => Function.update s x.1 x.2) s

/-! ## Errors -/

/-- What a handler throws. -/
inductive Exception
  | domain (code message : String) (status : ℕ)
  | http (status : ℕ) (message : String)
  | unknown
  deriving DecidableEq, Repr

/-- The body of an answer that is an error. Its status is that of the answer. -/
structure ErrorBody where
  code : String
  message : String
  statusCode : ℕ
  timestamp : String
  deriving DecidableEq, Repr

/-- `DomainExceptionFilter`, `catch`. -/
def filterException (timestamp : String) : Exception → ErrorBody
  | .domain code message status => ⟨code, message, status, timestamp⟩
  | .http status message =>
    ⟨if 500 ≤ status then "INTERNAL_ERROR" else "REQUEST_ERROR", message, status, timestamp⟩
  | .unknown => ⟨"INTERNAL_ERROR", "An unexpected error occurred", 500, timestamp⟩

/-- The exception that an error of the authentication is. -/
def exceptionOf : AuthError → Exception
  | .conflict message => .http 409 message
  | .unauthorized message => .http 401 message
  | .database _ => .unknown

/-- `ApiError` of the client. -/
structure ApiError where
  code : String
  message : String
  statusCode : ℕ
  timestamp : Option String
  deriving DecidableEq, Repr

/-- The response interceptor, for an error with its body or without a response. -/
def onRejected : Option ErrorBody → ApiError
  | none => ⟨"NETWORK_ERROR", "Couldn't reach the server. Is the backend running?", 0, none⟩
  | some body =>
    if body.statusCode = 401 then
      ⟨"UNAUTHORIZED", "Session expired. Please sign in again.", 401, none⟩
    else ⟨body.code, body.message, body.statusCode, some body.timestamp⟩

/-- The response clears the session. -/
def Unauthorized (response : Option ErrorBody) : Prop :=
  ∃ body ∈ response, body.statusCode = 401

instance (response : Option ErrorBody) : Decidable (Unauthorized response) :=
  inferInstanceAs (Decidable (∃ body ∈ response, _))

/-- An error of the API, or another one with its message. -/
inductive PageError
  | api (e : ApiError)
  | error (message : String)
  deriving DecidableEq, Repr

/-- The message of an error. -/
def PageError.message : PageError → String
  | .api e => e.message
  | .error message => message

/-! ## Calls -/

/-- The fields of a profile that these pages set. -/
structure UpdateUserBody where
  name : Option String := none
  username : Option String := none
  country : Option String := none
  deriving DecidableEq, Repr

/-- A guarded route. -/
inductive Route
  | getMe
  | updateMe (body : UpdateUserBody)
  | connectWallet (walletAddress : String)
  | other (path : String)
  deriving DecidableEq, Repr

/-- The calls of these pages to the backend. One behind the guard has a route. -/
inductive ApiCall
  | register (dto : RegisterDto)
  | walletStatus (walletAddress : String)
  | verifyChallenge (signedXdr : String)
  | guarded (route : Route)
  deriving DecidableEq, Repr

/-- A session, with the profile of its user. -/
structure AuthSession where
  token : String
  id : String
  name : String
  username : Option String
  deriving DecidableEq, Repr

/-- What the caller reads of the answer. Of a profile it is the username. -/
def ApiCall.Ans : ApiCall → Type
  | .register _ => AuthSession
  | .walletStatus _ => Bool
  | .verifyChallenge _ => AuthSession
  | .guarded _ => Option String

/-- The call that the backend gets. -/
def ApiCall.authCall (authorization : Option String) : ApiCall → AuthCall
  | .register dto => .register dto
  | .walletStatus walletAddress => .walletStatus walletAddress
  | .verifyChallenge signedXdr => .verify signedXdr
  | .guarded _ => .guarded authorization

/-- What the backend answers. A guarded route answers in the name of the identity it got. -/
inductive AuthAnswer
  | session (user : User) (token : String)
  | registered (registered : Bool)
  | handled (user : AuthUser)
  | loggedOut (success : Bool)
  deriving DecidableEq, Repr

/-- The method of a call, with its answer. -/
def answerCall : AuthCall → AuthMethod AuthAnswer
  | .register dto => (AuthService.register dto).bind fun x => .ret (.session x.1 x.2)
  | .walletStatus walletAddress =>
    (AuthService.walletStatus walletAddress).bind fun x => .ret (.registered x)
  | .verify signedXdr => (AuthService.verify signedXdr).bind fun x => .ret (.session x.1 x.2)
  | .guarded authorization => AuthService.guarded authorization fun user => .ret (.handled user)
  | .logout authorization =>
    (AuthService.guarded authorization AuthService.logout).bind fun x => .ret (.loggedOut x)

/-- It is the method of the service. -/
theorem answerCall_method (call : AuthCall) :
    (answerCall call).bind (fun _ => .ret ()) = call.method := by
  cases call <;> exact Prog.bind_assoc _ _ _

/-! ## Requests of pages -/

/-- What the wallet signs to log in. -/
structure Challenge where
  transaction : String
  networkPassphrase : String
  deriving DecidableEq, Repr

/-- What a page waits for, or does without an interruption. -/
inductive PageRequest
  /-- Of the extension : whether it is there, the address if access is given, whether its
  network is `TESTNET`, and a signature or the message of its error. -/
  | isConnected
  | requestAccess
  | onTestnet
  | signTransaction (challenge : Challenge) (address : String)
  /-- The writes up to the next `await`, and a read. -/
  | sync (writes : List Write)
  | getItem (key : Key)
  | getChallenge (walletAddress : String)
  /-- A call leaves with the token of the storage, and its answer comes. -/
  | send (call : ApiCall)
  | receive (call : ApiCall) (ticket : Ticket)
  deriving DecidableEq, Repr

/-- The answers. -/
def PageRequest.Ans : PageRequest → Type
  | .isConnected => Bool
  | .requestAccess => Option String
  | .onTestnet => Bool
  | .signTransaction _ _ => String
  | .sync _ => Unit
  | .getItem _ => Option String
  | .getChallenge _ => Challenge
  | .send _ => Ticket
  | .receive call _ => call.Ans

/-- The requests of the pages. -/
abbrev pages : Sig where
  Req := PageRequest
  Ans := PageRequest.Ans
  Event := Empty
  Error := PageError

/-- A handler of a page. -/
abbrev PageRun (α : Type) :=
  Prog pages α

/-- Await a request. -/
abbrev awaitPage (r : PageRequest) : PageRun r.Ans :=
  Prog.ask (S := pages) r

/-- A call to the API. -/
def http (call : ApiCall) : PageRun call.Ans := do
  let ticket : Ticket ← awaitPage (.send call)
  awaitPage (.receive call ticket)

/-! ## The pages -/

/-- What a page does in the end : the path it goes to, the signup page for a wallet, or the
message it shows. -/
inductive Outcome
  | push (href : String)
  | onboard (walletAddress : String)
  | failed (message : String)
  | done
  deriving DecidableEq, Repr

/-- `loginWithFreighter`. -/
def loginWithFreighter (walletAddress : String) : PageRun AuthSession := do
  let challenge : Challenge ← awaitPage (.getChallenge walletAddress)
  let signedXdr : String ← awaitPage (.signTransaction challenge walletAddress)
  http (.verifyChallenge signedXdr)

/-- `signIn` of the login page. -/
def signIn (address : String) : PageRun Outcome :=
  tryCatch (do
    let session : AuthSession ← loginWithFreighter address
    awaitPage (.sync [setToken (some session.token), setUserId session.id,
      setUsername (some session.name), setWalletAddress (some address)])
    return .push "/dashboard") fun e => return .failed e.message

/-- The first word of a name, `name.split(" ")[0].toLowerCase()`. -/
def firstWord (name : String) : String :=
  toLowerCase ((name.splitOn " ").headD "")

/-- `connect` of the navigation bar. -/
def connect : PageRun Outcome :=
  tryCatch (do
    let isConnected : Bool ← awaitPage .isConnected
    if !isConnected then throw (.error "Freighter wallet is not installed.")
    else
      match ← awaitPage .requestAccess with
      | none => throw (.error "Connection was rejected in Freighter.")
      | some address =>
        let testnet : Bool ← awaitPage .onTestnet
        if !testnet then throw (.error "Switch Freighter to the Testnet network.")
        else
          let registered : Bool ← http (.walletStatus address)
          if registered then
            let session : AuthSession ← loginWithFreighter address
            awaitPage (.sync [setToken (some session.token), setUserId session.id,
              setUsername (some (session.username.getD (firstWord session.name))),
              setWalletAddress (some address)])
            return .push "/dashboard"
          else return .onboard address) fun e => return .failed e.message

/-- `disconnect` of the navigation bar. -/
def disconnect : PageRun Outcome := do
  awaitPage (.sync clearSession)
  return .push "/"

/-- The roles of the signup page. -/
inductive SignupRole
  | creator
  | buyer
  deriving DecidableEq, Repr

/-- The form of the signup page. -/
structure SignupData where
  role : SignupRole
  email : String
  username : String
  country : String
  walletAddress : Option String
  deriving DecidableEq, Repr

/-- `submit` of the signup page. The user may be there when it fails, since the profile is set
after the registration. -/
def submit (data : SignupData) : PageRun Outcome :=
  tryCatch (do
    let role := if data.role = .creator then "CREATOR" else "BUYER"
    let user : AuthSession ← http (.register ⟨data.email, data.username, role⟩)
    awaitPage (.sync [setToken (some user.token), setUserId user.id,
      setUsername (some data.username)])
    let _ ← http (.guarded (.updateMe
      { username := some data.username, country := some data.country }))
    match data.walletAddress.filter fun address => data.role = .creator ∧ address ≠ "" with
    | none => return .done
    | some address =>
      awaitPage (.sync [setWalletAddress (some address)])
      let _ ← tryCatch (http (.guarded (.connectWallet address))) fun _ => return none
      return .done) fun e =>
        match e with
        | .api e => return .failed e.message
        | .error _ => return .failed "Couldn't create your account. Try again."

/-- `save` of the settings. The page has the user it was rendered with. -/
def save (userId : Option String) (body : UpdateUserBody) : PageRun Outcome :=
  if userId.filter (· ≠ "") = none then return .done
  else
    tryCatch (do
      let username : Option String ← http (.guarded (.updateMe body))
      match username.filter (· ≠ "") with
      | none => return .done
      | some username =>
        awaitPage (.sync [setUsername (some username)])
        return .done) fun e =>
          match e with
          | .api e => return .failed e.message
          | .error _ => return .failed "Couldn't save your changes."

/-- `onContinue` of the page that connects a wallet. -/
def onContinue (address : Option String) : PageRun Outcome := do
  match address.filter (· ≠ "") with
  | none => return .push "/dashboard"
  | some address =>
    awaitPage (.sync [setWalletAddress (some address)])
    let userId : Option String ← awaitPage (.getItem .userId)
    if userId.filter (· ≠ "") = none then return .push "/dashboard"
    else
      let _ ← tryCatch (http (.guarded (.connectWallet address))) fun _ => return none
      return .push "/dashboard"

/-- What the user does, and what pages load. -/
inductive PageAction
  | connect
  | disconnect
  | signIn (address : String)
  | submit (data : SignupData)
  | save (userId : Option String) (body : UpdateUserBody)
  | onContinue (address : Option String)
  | load (route : Route)
  deriving DecidableEq, Repr

/-- The handler of an action. -/
def PageAction.method : PageAction → PageRun Outcome
  | .connect => Browser.connect
  | .disconnect => Browser.disconnect
  | .signIn address => Browser.signIn address
  | .submit data => Browser.submit data
  | .save userId body => Browser.save userId body
  | .onContinue address => Browser.onContinue address
  | .load route =>
    tryCatch ((http (.guarded route)).bind fun _ => .ret .done) fun e => return .failed e.message

/-! ## The browser -/

/-- A call that has left, with the user that the pages showed then. -/
structure Sent where
  ticket : Ticket
  shown : Option String
  deriving DecidableEq, Repr

/-- The storage, the backend, and the calls that have left so far. -/
structure BrowserWorld where
  storage : Storage
  server : Server auth AuthWorld AuthAnswer AuthCall
  sent : List Sent

/-- The outcome of one request : what the extension answers, whether a response is lost, what the
throttle, the validation or a handler behind the guard throws or else the username it answers,
the challenge, and the time of an error. -/
structure PageChoice where
  connected : Bool := true
  access : Option String := none
  testnet : Bool := true
  signed : Except String String := .error "Signing was cancelled in Freighter."
  lost : Bool := false
  thrown : Option Exception := none
  username : Option String := none
  challenge : Challenge := ⟨"", ""⟩
  timestamp : String := ""

/-- The turns of the backend, for whatever client. -/
abbrev BackendTurn :=
  Turn AuthChoice AuthStep AuthCall

/-- The request interceptor : the header of a request. -/
def authorization (s : Storage) : Option String :=
  (s .token).bind fun token => if token = "" then none else some ("Bearer " ++ token)

namespace BrowserWorld

/-- The call leaves. -/
def send (sdk : WebAuth) (jwt : Jwt) (call : ApiCall) (w : BrowserWorld) : BrowserWorld :=
  { w with
    server := w.server.turn (authMachine sdk jwt) answerCall
      (.call (call.authCall (authorization w.storage)))
    sent := w.sent ++ [⟨w.server.ticket, w.storage .userId⟩] }

/-- What a caller reads of an answer. The profile of a session comes without a username. -/
def read : (call : ApiCall) → PageChoice → AuthAnswer → Except (Option ErrorBody) call.Ans
  | .register _, _, .session user token => .ok ⟨token, user.id, user.name, none⟩
  | .verifyChallenge _, _, .session user token => .ok ⟨token, user.id, user.name, none⟩
  | .walletStatus _, _, .registered registered => .ok registered
  | .guarded _, c, .handled _ => .ok c.username
  | _, _, _ => .error none

/-- The response to a call : its answer, an error, or nothing. -/
def response (call : ApiCall) (t : Ticket) (c : PageChoice) (w : BrowserWorld) :
    Except (Option ErrorBody) call.Ans :=
  if c.lost then .error none
  else
    match c.thrown, w.server.answer t with
    | some e, _ => .error (some (filterException c.timestamp e))
    | none, none => .error none
    | none, some (.error e) => .error (some (filterException c.timestamp (exceptionOf e)))
    | none, some (.ok a) => read call c a

/-- The storage after a response that is an error. -/
def reject (r : Option ErrorBody) (w : BrowserWorld) : BrowserWorld :=
  if Unauthorized r then { w with storage := w.storage.write clearSession } else w

/-- The response interceptor. -/
def intercept {α : Type} (x : Except (Option ErrorBody) α) (w : BrowserWorld) :
    Except PageError α × BrowserWorld :=
  match x with
  | .ok a => (.ok a, w)
  | .error r => (.error (.api (onRejected r)), w.reject r)

/-- The answer to a request for a challenge. -/
def challenge (c : PageChoice) : Except (Option ErrorBody) Challenge :=
  if c.lost then .error none
  else
    match c.thrown with
    | none => .ok c.challenge
    | some e => .error (some (filterException c.timestamp e))

end BrowserWorld

/-- What a request of a page is answered, and the world after it. -/
def pageExec (sdk : WebAuth) (jwt : Jwt) : (r : PageRequest) → PageChoice → BrowserWorld →
    Except PageError r.Ans × BrowserWorld
  | .isConnected, c, w => (.ok c.connected, w)
  | .requestAccess, c, w => (.ok (c.access.filter (· ≠ "")), w)
  | .onTestnet, c, w => (.ok c.testnet, w)
  | .signTransaction _ _, c, w => (c.signed.mapError .error, w)
  | .sync writes, _, w => (.ok (), { w with storage := w.storage.write writes })
  | .getItem key, _, w => (.ok (w.storage key), w)
  | .getChallenge _, c, w => w.intercept (BrowserWorld.challenge c)
  | .send call, _, w => (.ok w.server.ticket, w.send sdk jwt call)
  | .receive call t, c, w => w.intercept (w.response call t c)

/-- The requests on the storage, and the turns of the backend around them. -/
def pageMachine (sdk : WebAuth) (jwt : Jwt) :
    Machine pages BrowserWorld PageChoice BackendTurn where
  exec := pageExec sdk jwt
  log e _ := e.elim
  env t w := { w with server := w.server.turn (authMachine sdk jwt) answerCall t }

/-- A browser without a session, and the backend before any call. -/
def BrowserWorld.start (w : AuthWorld) : BrowserWorld :=
  ⟨fun _ => none, ⟨⟨[], w⟩, [], 0⟩, []⟩

end Browser

end Kreav
