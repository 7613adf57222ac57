import Kreav.BrowserSession
import Kreav.SessionRuns

/-!
# The user that a browser shows

The pages of `Kreav.BrowserSession` next to the backend, which serves other clients too :
any number of pages at once, interleaved with each other at their awaits and with the calls,
faults, timers and restarts of the backend in any way, with late answers, lost ones and
reloads of the page.

`shown_user_served` : the storage has a token and a user together, and the token was signed
for this user. A call that leaves the browser carries the token of the user that is shown,
and the backend handles it in the name of this user or not at all.

`answered` says what each call to the backend is answered, and `Inv` what every step of a
page keeps.
-/

open Async Prog

namespace Kreav

namespace Browser

open AuthService

variable {sdk : WebAuth} {jwt : Jwt}

/-! ## The answers of the backend -/

/-- The token was signed for the user. -/
def SignedFor (jwt : Jwt) (w : AuthWorld) (id token : String) : Prop :=
  ∃ x ∈ w.history.issued, token = jwt.sign x.token x.iat ∧ x.token.sub = id

theorem SignedFor.mono {w w' : AuthWorld} {id token : String} (h : SignedFor jwt w id token)
    (hsub : w.history.issued ⊆ w'.history.issued) : SignedFor jwt w' id token := by
  obtain ⟨x, hx, h⟩ := h
  exact ⟨x, hsub hx, h⟩

/-- The methods, none of which forgets a token that was signed. -/
def serving (sdk : WebAuth) (jwt : Jwt) : Discipline (authMachine sdk jwt) :=
  Discipline.apart (authMachine sdk jwt) (fun _ => True)
    (fun _ w w' => w.history.issued ⊆ w'.history.issued) (fun _ _ _ => True) (fun _ _ => True)
    (fun _ _ => List.Subset.refl _) List.Subset.trans
    fun {w e} _ _ => ⟨trivial, fun _ => (SessionProtocol.extends_env e w).issued⟩

/-- What the backend answers to a call : a session has a token of its user, and behind the
guard is the user of the header. -/
def Answered (jwt : Jwt) : AuthCall → AuthAnswer → AuthWorld → Prop
  | .guarded authorization, .handled user, _ =>
    ∃ now revoked, canActivate jwt authorization now revoked = .ok user
  | _, .handled _, _ => False
  | _, .session user token, w => SignedFor jwt w user.id token
  | _, _, _ => True

theorem Answered.mono {call : AuthCall} {a : AuthAnswer} {w w' : AuthWorld}
    (h : Answered jwt call a w) (hsub : w.history.issued ⊆ w'.history.issued) :
    Answered jwt call a w' := by
  cases call <;> cases a <;> first | exact SignedFor.mono h hsub | exact h

theorem stable_answered (call : AuthCall) (i : ℕ) :
    Stable (serving sdk jwt) i (Answered jwt call) fun _ _ => True where
  ret_inv _ := trivial
  raise_inv _ := trivial
  ret_rely h hr _ := h.mono hr
  raise_rely _ _ _ := trivial

/-- A request with an answer in `Q`. -/
theorem triple_ask {r : AuthRequest} {i : ℕ} {Q : r.Ans → AuthWorld → Prop}
    (h : ∀ c w x, (authExec sdk jwt r c w).1 = .ok x → Q x (authExec sdk jwt r c w).2) :
    (awaitAuth r).Triple (serving sdk jwt) i (fun _ => True) Q fun _ _ => True :=
  Triple.ask ⟨fun _ => trivial, fun _ _ _ => trivial⟩ (fun _ _ => trivial)
    (fun w c _ _ _ _ => (SessionProtocol.outcome_exec r c w).extends.issued)
    (fun w c x _ _ hx => h c w x hx) fun _ _ _ _ _ _ => trivial

theorem triple_sign (i : ℕ) (user : User) :
    (awaitAuth (.sign user.id user.role user.email)).Triple (serving sdk jwt) i (fun _ => True)
      (fun token w => SignedFor jwt w user.id token) fun _ _ => True := by
  refine triple_ask fun c w token hx => ?_
  obtain rfl := Except.ok.inj hx
  exact ⟨⟨⟨user.id, user.role, user.email, c.uuid⟩, w.now⟩,
    List.mem_append_right _ (List.mem_singleton.2 rfl), rfl, rfl⟩

theorem triple_register (i : ℕ) (dto : RegisterDto) :
    (register dto).Triple (serving sdk jwt) i (fun _ => True)
      (fun x w => SignedFor jwt w x.1.id x.2) fun _ _ => True := by
  refine Triple.bind (R := fun _ _ => True) (triple_ask fun _ _ _ _ => trivial) fun existing => ?_
  cases existing with
  | true => exact Triple.raise fun _ _ => trivial
  | false =>
    refine Triple.bind (R := fun _ _ => True) (triple_ask fun _ _ _ _ => trivial) fun user => ?_
    refine Triple.bind (triple_sign i user) fun token => ?_
    refine Triple.bind (R := fun _ w => SignedFor jwt w user.id token)
      (Triple.signal fun w h => ⟨fun _ _ => ?_, h.mono ?_⟩) fun _ => Triple.ret fun _ h => h
    · exact (SessionProtocol.extends_log _ w).issued
    · exact (SessionProtocol.extends_log _ w).issued

theorem triple_verify (i : ℕ) (signedXdr : String) :
    (AuthService.verify signedXdr).Triple (serving sdk jwt) i (fun _ => True)
      (fun x w => SignedFor jwt w x.1.id x.2) fun _ _ => True := by
  refine Triple.bind (R := fun _ _ => True) (triple_ask fun _ _ _ _ => trivial) fun tx => ?_
  refine Triple.bind (R := fun _ _ => True) (triple_ask fun _ _ _ _ => trivial) fun wallet => ?_
  cases wallet with
  | none => exact Triple.raise fun _ _ => trivial
  | some user => exact Triple.bind (triple_sign i user) fun token => Triple.ret fun _ h => h

theorem triple_logout (i : ℕ) (user : AuthUser) :
    (logout user).Triple (serving sdk jwt) i (fun _ => True) (fun _ _ => True)
      fun _ _ => True := by
  unfold logout
  cases user.jti.filter (· ≠ "") with
  | none => exact Triple.ret fun _ _ => trivial
  | some jti =>
    refine Triple.bind (R := fun _ _ => True) (triple_ask fun _ _ _ _ => trivial) fun _ => ?_
    exact Triple.bind (R := fun _ _ => True)
      (Triple.signal fun w _ => ⟨fun _ _ => (SessionProtocol.extends_log _ w).issued, trivial⟩)
      fun _ => Triple.ret fun _ _ => trivial

/-- Every call is answered as it should. -/
theorem answered (call : AuthCall) :
    (answerCall call).Suspended ∧
      ∀ i, (answerCall call).Triple (serving sdk jwt) i (fun _ => True) (Answered jwt call)
        fun _ _ => True := by
  cases call with
  | register dto =>
    exact ⟨trivial, fun i => (triple_register i dto).bind fun _ => Triple.ret fun _ h => h⟩
  | walletStatus walletAddress =>
    refine ⟨trivial, fun i => Triple.bind (R := fun _ _ => True) ?_ fun x =>
      Triple.ret fun _ _ => trivial⟩
    exact Triple.bind (R := fun _ _ => True) (triple_ask fun _ _ _ _ => trivial) fun x =>
      Triple.ret fun _ _ => trivial
  | verify signedXdr =>
    exact ⟨trivial, fun i => (triple_verify i signedXdr).bind fun x => Triple.ret fun _ h => h⟩
  | guarded authorization =>
    refine ⟨trivial, fun i => Triple.bind (R := fun user _ => ∃ now revoked,
      canActivate jwt authorization now revoked = .ok user) (triple_ask fun c w user hx => ?_)
      fun user => Triple.ret fun _ h => h⟩
    refine ⟨w.now, w.revokedTokens, ?_⟩
    simp only [authExec, AuthWorld.activate] at hx
    cases hok : canActivate jwt authorization w.now w.revokedTokens with
    | error e => simp [hok] at hx
    | ok user' =>
      rw [hok] at hx
      exact congrArg _ (Except.ok.inj hx)
  | logout authorization =>
    refine ⟨trivial, fun i => Triple.bind (R := fun _ _ => True) ?_ fun x =>
      Triple.ret fun _ _ => trivial⟩
    exact Triple.bind (R := fun _ _ => True) (triple_ask fun _ _ _ _ => trivial) fun user =>
      triple_logout i user

/-! ## The storage -/

/-- No token and no user, or a token with the user it was signed for. -/
def Coherent (jwt : Jwt) (w : AuthWorld) (s : Storage) : Prop :=
  s .token = none ∧ s .userId = none ∨
    ∃ id token, s .token = some token ∧ s .userId = some id ∧ SignedFor jwt w id token

theorem Coherent.mono {w w' : AuthWorld} {s : Storage} (h : Coherent jwt w s)
    (hsub : w.history.issued ⊆ w'.history.issued) : Coherent jwt w' s := by
  rcases h with h | ⟨id, token, ht, hu, hs⟩
  · exact .inl h
  · exact .inr ⟨id, token, ht, hu, hs.mono hsub⟩

/-- Items that are not written stay. -/
theorem write_of_ne {key : Key} (writes : List Write) (h : ∀ x ∈ writes, x.1 ≠ key)
    (s : Storage) : s.write writes key = s key := by
  induction writes generalizing s with
  | nil => rfl
  | cons x writes ih =>
    have hrest := ih (fun y hy => h y (List.mem_cons_of_mem _ hy)) (Function.update s x.1 x.2)
    refine hrest.trans ?_
    exact Function.update_of_ne (h x List.mem_cons_self).symm _ _

/-- Of the session, the writes set the name and the wallet only. -/
def Names (writes : List Write) : Prop :=
  ∀ x ∈ writes, x.1 ≠ .token ∧ x.1 ≠ .userId

theorem Coherent.write {w : AuthWorld} {s : Storage} (h : Coherent jwt w s)
    {writes : List Write} (hw : Names writes) : Coherent jwt w (s.write writes) := by
  unfold Coherent
  rw [write_of_ne writes (fun x hx => (hw x hx).1), write_of_ne writes fun x hx => (hw x hx).2]
  exact h

/-- The writes of a page that signs in. -/
theorem SignedFor.coherent {w : AuthWorld} {id token : String} (h : SignedFor jwt w id token)
    {writes : List Write} (hw : Names writes) (s : Storage) :
    Coherent jwt w (s.write (setToken (some token) :: setUserId id :: writes)) :=
  Coherent.write (s := Function.update (Function.update s .token (some token)) .userId (some id))
    (.inr ⟨id, token, rfl, rfl, h⟩) hw

theorem coherent_clearSession {w : AuthWorld} (s : Storage) :
    Coherent jwt w (s.write clearSession) :=
  .inl ⟨rfl, rfl⟩

/-- A call with the header of the storage is handled in the name of the user that is stored. -/
theorem Coherent.served (hjwt : jwt.Lawful) {w : AuthWorld} {s : Storage}
    (h : Coherent jwt w s) {now : ℕ} {revoked : List String} {user : AuthUser}
    (hok : canActivate jwt (authorization s) now revoked = .ok user) :
    s .userId = some user.userId := by
  obtain ⟨text, htext, p, hp, -, rfl⟩ := SessionProtocol.canActivate_ok hok
  rcases h with ⟨ht, -⟩ | ⟨id, token, ht, hu, x, -, rfl, rfl⟩
  · simp [authorization, ht, bearerToken] at htext
  · have hne := hjwt.sign_ne x.token x.iat
    rw [authorization, ht, Option.bind_some, if_neg hne,
      SessionProtocol.bearerToken_bearer hne] at htext
    obtain rfl := Option.some.inj htext
    obtain ⟨rfl, -⟩ := SessionProtocol.live_of_verify_sign hjwt hp
    exact hu

/-! ## The steps of the pages -/

/-- Every call is answered as it should, the storage is coherent, and it was when a call
left. -/
structure Inv (sdk : WebAuth) (jwt : Jwt) (w : BrowserWorld) : Prop where
  serves : w.server.Serves (serving sdk jwt) (Answered jwt) fun _ _ _ => True
  stored : Coherent jwt w.server.config.world w.storage
  sent : ∀ x ∈ w.sent, ∃ (call : ApiCall) (s : Storage),
    w.server.Gave x.ticket (call.authCall (authorization s)) ∧ s .userId = x.shown ∧
      Coherent jwt w.server.config.world s

/-- Tickets and tokens stay. -/
structure Extends (w w' : BrowserWorld) : Prop where
  issued : w.server.config.world.history.issued ⊆ w'.server.config.world.history.issued
  gave : ∀ {t call}, w.server.Gave t call → w'.server.Gave t call

theorem Extends.refl (w : BrowserWorld) : Extends w w :=
  ⟨List.Subset.refl _, id⟩

theorem Extends.trans {w w' w'' : BrowserWorld} (h : Extends w w') (h' : Extends w' w'') :
    Extends w w'' :=
  ⟨List.Subset.trans h.issued h'.issued, fun ht => h'.gave (h.gave ht)⟩

/-- A turn of the backend. -/
theorem issued_turn (s : Server auth AuthWorld AuthAnswer AuthCall) (t : BackendTurn) :
    s.config.world.history.issued ⊆
      (s.turn (authMachine sdk jwt) answerCall t).config.world.history.issued := by
  rw [Server.config_turn]
  exact Config.turn_world (M := authMachine sdk jwt)
    (R := fun w w' => w.history.issued ⊆ w'.history.issued) (fun _ => List.Subset.refl _)
    List.Subset.trans
    (fun r c w => (SessionProtocol.outcome_exec r c w).extends.issued)
    (fun v w => (SessionProtocol.extends_log v w).issued)
    (fun e w => (SessionProtocol.extends_env e w).issued) s.config t

theorem extends_turn (sdk : WebAuth) (jwt : Jwt) (t : BackendTurn) {w w' : BrowserWorld}
    (h : w'.server = w.server.turn (authMachine sdk jwt) answerCall t) : Extends w w' where
  issued := h ▸ issued_turn w.server t
  gave ht := h ▸ ht.turn t

theorem Inv.turn {w : BrowserWorld} (h : Inv sdk jwt w) (t : BackendTurn) :
    Inv sdk jwt { w with server := w.server.turn (authMachine sdk jwt) answerCall t } where
  serves := h.serves.turn stable_answered
    (fun a _ => by cases a <;> simp [Config.Meets, serving, Discipline.apart])
    fun call _ => answered call
  stored := h.stored.mono (issued_turn w.server t)
  sent x hx := by
    obtain ⟨call, s, hgave, hshown, hs⟩ := h.sent x hx
    exact ⟨call, s, hgave.turn t, hshown, hs.mono (issued_turn w.server t)⟩

/-- A call leaves. -/
theorem Inv.send {w : BrowserWorld} (h : Inv sdk jwt w) (call : ApiCall) :
    Inv sdk jwt (w.send sdk jwt call) ∧ Extends w (w.send sdk jwt call) ∧
      (w.send sdk jwt call).server.Gave w.server.ticket
        (call.authCall (authorization w.storage)) := by
  have hturn := h.turn (.call (call.authCall (authorization w.storage)))
  have hgave : (w.send sdk jwt call).server.Gave w.server.ticket
      (call.authCall (authorization w.storage)) := Server.gave_ticket w.server _
  refine ⟨⟨hturn.serves, hturn.stored, fun x hx => ?_⟩, extends_turn sdk jwt
    (.call (call.authCall (authorization w.storage))) rfl, hgave⟩
  rcases List.mem_append.1 hx with hx | hx
  · exact hturn.sent x hx
  · obtain rfl := List.mem_singleton.1 hx
    exact ⟨call, w.storage, hgave, rfl, hturn.stored⟩

theorem Inv.storage {w : BrowserWorld} (h : Inv sdk jwt w) {s : Storage}
    (hs : Coherent jwt w.server.config.world s) : Inv sdk jwt { w with storage := s } :=
  ⟨h.serves, hs, h.sent⟩

theorem Inv.reject {w : BrowserWorld} (h : Inv sdk jwt w) (r : Option ErrorBody) :
    Inv sdk jwt (w.reject r) ∧ Extends w (w.reject r) := by
  unfold BrowserWorld.reject
  split
  · exact ⟨h.storage (coherent_clearSession _), ⟨List.Subset.refl _, id⟩⟩
  · exact ⟨h, .refl w⟩

/-- An answer arrives. -/
theorem Inv.intercept {α : Type} {w : BrowserWorld} (h : Inv sdk jwt w)
    (x : Except (Option ErrorBody) α) :
    Inv sdk jwt (w.intercept x).2 ∧ Extends w (w.intercept x).2 ∧
      ∀ a, (w.intercept x).1 = .ok a → x = .ok a := by
  cases x with
  | ok a => exact ⟨h, .refl w, fun a' ha => congrArg _ (Except.ok.inj ha)⟩
  | error r => exact ⟨(h.reject r).1, (h.reject r).2, fun a ha => by cases ha⟩

/-- What the caller of a call gets : a session is that of the user whose id it has. -/
def Received (jwt : Jwt) (w : AuthWorld) : (call : ApiCall) → call.Ans → Prop
  | .register _, session => SignedFor jwt w session.id session.token
  | .verifyChallenge _, session => SignedFor jwt w session.id session.token
  | _, _ => True

theorem Received.mono {w w' : AuthWorld} {call : ApiCall} {x : call.Ans}
    (h : Received jwt w call x) (hsub : w.history.issued ⊆ w'.history.issued) :
    Received jwt w' call x := by
  cases call with
  | register dto => exact SignedFor.mono h hsub
  | verifyChallenge signedXdr => exact SignedFor.mono h hsub
  | walletStatus walletAddress => exact trivial
  | guarded route => exact trivial

theorem Inv.received {w : BrowserWorld} (h : Inv sdk jwt w) {call : ApiCall} {t : Ticket}
    {authorization : Option String} (ht : w.server.Gave t (call.authCall authorization))
    {c : PageChoice} {x : call.Ans} (hx : w.response call t c = .ok x) :
    Received jwt w.server.config.world call x := by
  unfold BrowserWorld.response at hx
  split at hx
  · cases hx
  split at hx
  · cases hx
  · cases hx
  · cases hx
  next a _ ha =>
  have hq := h.serves.answer ht ha
  cases call with
  | register dto =>
    cases a with
    | session user token =>
      obtain rfl := Except.ok.inj hx
      exact hq
    | _ => cases hx
  | verifyChallenge signedXdr =>
    cases a with
    | session user token =>
      obtain rfl := Except.ok.inj hx
      exact hq
    | _ => cases hx
  | walletStatus walletAddress => exact trivial
  | guarded route => exact trivial

/-! ## The pages -/

/-- The pages, each of which keeps the invariant. -/
def showing (sdk : WebAuth) (jwt : Jwt) : Discipline (pageMachine sdk jwt) :=
  Discipline.apart (pageMachine sdk jwt) (Inv sdk jwt) (fun _ => Extends) (fun _ _ _ => True)
    (fun _ _ => True) (fun _ => Extends.refl) Extends.trans
    fun {_ t} h _ => ⟨h.turn t, fun _ => extends_turn sdk jwt t rfl⟩

theorem stable_inv (i : ℕ) :
    Stable (showing sdk jwt) i (fun (_ : Outcome) => Inv sdk jwt) fun _ => Inv sdk jwt where
  ret_inv h := h
  raise_inv h := h
  ret_rely _ _ h := h
  raise_rely _ _ h := h

/-- A request, with a precondition that lasts. -/
theorem triple_request {r : PageRequest} {i : ℕ} {P : BrowserWorld → Prop}
    {Q : r.Ans → BrowserWorld → Prop} (hP : ∀ {w w'}, P w → Extends w w' → P w')
    (h : ∀ c w, Inv sdk jwt w → P w → Inv sdk jwt (pageExec sdk jwt r c w).2 ∧
      Extends w (pageExec sdk jwt r c w).2 ∧
        ∀ x, (pageExec sdk jwt r c w).1 = .ok x → Q x (pageExec sdk jwt r c w).2) :
    (awaitPage r).Triple (showing sdk jwt) i (fun w => Inv sdk jwt w ∧ P w)
      (fun x w => Inv sdk jwt w ∧ Q x w) fun _ => Inv sdk jwt :=
  Triple.ask ⟨And.left, fun hw hr hi => ⟨hi, hP hw.2 hr⟩⟩ (fun _ _ => trivial)
    (fun w c hw _ _ _ => (h c w hw.1 hw.2).2.1)
    (fun w c x hw _ hx => ⟨(h c w hw.1 hw.2).1, (h c w hw.1 hw.2).2.2 x hx⟩)
    fun w c _ hw _ _ => (h c w hw.1 hw.2).1

/-- A request that keeps the invariant. -/
theorem keeps_request {r : PageRequest} {i : ℕ}
    (h : ∀ c w, Inv sdk jwt w → Inv sdk jwt (pageExec sdk jwt r c w).2 ∧
      Extends w (pageExec sdk jwt r c w).2) :
    (awaitPage r).Keeps (showing sdk jwt) i (Inv sdk jwt) :=
  (triple_request (P := fun _ => True) (Q := fun _ _ => True) (fun _ _ => trivial)
    fun c w hw _ => ⟨(h c w hw).1, (h c w hw).2, fun _ _ => trivial⟩).mono
      (fun _ hw => ⟨hw, trivial⟩) (fun _ _ hw => hw.1) fun _ _ hw => hw

theorem keeps_sync {writes : List Write} (hw : Names writes) (i : ℕ) :
    (awaitPage (.sync writes)).Keeps (showing sdk jwt) i (Inv sdk jwt) :=
  keeps_request fun _ _ h => ⟨h.storage (h.stored.write hw), List.Subset.refl _, id⟩

/-- A page signs in. -/
theorem triple_signIn {id token : String} {writes : List Write} (hw : Names writes) (i : ℕ) :
    (awaitPage (.sync (setToken (some token) :: setUserId id :: writes))).Triple
      (showing sdk jwt) i
      (fun w => Inv sdk jwt w ∧ SignedFor jwt w.server.config.world id token)
      (fun _ => Inv sdk jwt) fun _ => Inv sdk jwt := by
  refine (triple_request (Q := fun _ _ => True) (fun h he => h.mono he.issued)
    fun c w h hs => ?_).mono (fun _ h => h) (fun _ _ h => h.1) fun _ _ h => h
  exact ⟨h.storage (hs.coherent hw w.storage), ⟨List.Subset.refl _, fun ht => ht⟩,
    fun _ _ => trivial⟩

/-- A call and its answer. -/
theorem triple_http (call : ApiCall) (i : ℕ) :
    (http call).Triple (showing sdk jwt) i (Inv sdk jwt)
      (fun x w => Inv sdk jwt w ∧ Received jwt w.server.config.world call x)
      fun _ => Inv sdk jwt := by
  refine Triple.bind (R := fun t w => Inv sdk jwt w ∧
    ∃ header, w.server.Gave t (call.authCall header)) ?_ fun t => ?_
  · refine (triple_request (P := fun _ => True) (fun _ _ => trivial) fun c w h _ => ?_).mono
      (fun _ h => ⟨h, trivial⟩) (fun _ _ h => h) fun _ _ h => h
    refine ⟨(h.send call).1, (h.send call).2.1, fun t ht => ?_⟩
    obtain rfl := Except.ok.inj ht
    exact ⟨_, (h.send call).2.2⟩
  · refine triple_request (fun ht he => ?_) fun c w h ht => ?_
    · obtain ⟨header, ht⟩ := ht
      exact ⟨header, he.gave ht⟩
    · obtain ⟨header, ht⟩ := ht
      obtain ⟨hinv, he, hok⟩ := h.intercept (w.response call t c)
      refine ⟨hinv, he, fun x hx => ?_⟩
      exact (h.received ht (hok x hx)).mono he.issued

theorem keeps_http (call : ApiCall) (i : ℕ) :
    (http call).Keeps (showing sdk jwt) i (Inv sdk jwt) :=
  (triple_http call i).mono (fun _ h => h) (fun _ _ h => h.1) fun _ _ h => h

/-- A request to the extension, or a read. -/
theorem keeps_quiet {r : PageRequest} (h : ∀ c w, (pageExec sdk jwt r c w).2 = w) (i : ℕ) :
    (awaitPage r).Keeps (showing sdk jwt) i (Inv sdk jwt) :=
  keeps_request fun c w hw => by
    rw [h c w]
    exact ⟨hw, .refl w⟩

theorem triple_loginWithFreighter (walletAddress : String) (i : ℕ) :
    (loginWithFreighter walletAddress).Triple (showing sdk jwt) i (Inv sdk jwt)
      (fun session w => Inv sdk jwt w ∧
        SignedFor jwt w.server.config.world session.id session.token) fun _ => Inv sdk jwt := by
  refine Triple.bind (R := fun _ => Inv sdk jwt) ?_ fun challenge => ?_
  · exact keeps_request fun c w h => ⟨(h.intercept _).1, (h.intercept _).2.1⟩
  · exact Triple.bind (keeps_quiet (fun _ _ => rfl) i) fun signedXdr => triple_http _ i

/-- A page that shows its error. -/
theorem keeps_tryCatch {p : PageRun Outcome} {f : PageError → Outcome} {i : ℕ}
    (hp : p.Keeps (showing sdk jwt) i (Inv sdk jwt)) :
    (p.tryCatch fun e => .ret (f e)).Keeps (showing sdk jwt) i (Inv sdk jwt) :=
  Triple.tryCatch hp fun _ => Triple.ret fun _ h => h

theorem names_username (username : Option String) : Names [setUsername username] := by
  simp [Names, setUsername]

theorem names_walletAddress (walletAddress : Option String) :
    Names [setWalletAddress walletAddress] := by
  simp [Names, setWalletAddress]

theorem names_profile (username walletAddress : Option String) :
    Names [setUsername username, setWalletAddress walletAddress] := by
  simp [Names, setUsername, setWalletAddress]

theorem keeps_signIn (address : String) (i : ℕ) :
    (signIn address).Keeps (showing sdk jwt) i (Inv sdk jwt) :=
  keeps_tryCatch <| (triple_loginWithFreighter address i).bind fun _ =>
    (triple_signIn (names_profile _ _) i).bind fun _ => Triple.ret fun _ h => h

theorem keeps_connect (i : ℕ) : connect.Keeps (showing sdk jwt) i (Inv sdk jwt) := by
  refine keeps_tryCatch (Triple.bind (keeps_quiet (fun _ _ => rfl) i) fun isConnected => ?_)
  cases isConnected with
  | false => exact Triple.raise fun _ h => h
  | true =>
  refine Triple.bind (keeps_quiet (fun _ _ => rfl) i) fun access => ?_
  cases access with
  | none => exact Triple.raise fun _ h => h
  | some address =>
  refine Triple.bind (keeps_quiet (fun _ _ => rfl) i) fun testnet => ?_
  cases testnet with
  | false => exact Triple.raise fun _ h => h
  | true =>
  refine Triple.bind (keeps_http (.walletStatus address) i) fun registered => ?_
  cases registered with
  | false => exact Triple.ret fun _ h => h
  | true =>
    exact (triple_loginWithFreighter address i).bind fun _ =>
      (triple_signIn (names_profile _ _) i).bind fun _ => Triple.ret fun _ h => h

theorem keeps_disconnect (i : ℕ) : disconnect.Keeps (showing sdk jwt) i (Inv sdk jwt) :=
  Triple.bind (keeps_request fun _ w h =>
    ⟨h.storage (coherent_clearSession w.storage), List.Subset.refl _, id⟩) fun _ =>
      Triple.ret fun _ h => h

/-- A page that tries to connect a wallet. -/
theorem keeps_tryConnect (address : String) (x : Outcome) (i : ℕ) :
    ((Prog.tryCatch (http (.guarded (.connectWallet address))) fun _ => .ret none).bind
      fun _ => .ret x).Keeps (showing sdk jwt) i (Inv sdk jwt) :=
  Triple.bind (Triple.tryCatch (keeps_http _ i) fun _ => Triple.ret fun _ h => h) fun _ =>
    Triple.ret fun _ h => h

theorem keeps_submit (data : SignupData) (i : ℕ) :
    (submit data).Keeps (showing sdk jwt) i (Inv sdk jwt) := by
  refine Triple.tryCatch (Triple.bind (triple_http _ i) fun user => ?_) fun e => ?_
  · refine Triple.bind (triple_signIn (names_username (some data.username)) i) fun _ => ?_
    refine Triple.bind (keeps_http _ i) fun _ => ?_
    cases data.walletAddress.filter fun address => data.role = .creator ∧ address ≠ "" with
    | none => exact Triple.ret fun _ h => h
    | some address =>
      exact Triple.bind (keeps_sync (names_walletAddress _) i) fun _ =>
        keeps_tryConnect address .done i
  · cases e <;> exact Triple.ret fun _ h => h

theorem keeps_save (userId : Option String) (body : UpdateUserBody) (i : ℕ) :
    (save userId body).Keeps (showing sdk jwt) i (Inv sdk jwt) := by
  unfold save
  split
  · exact Triple.ret fun _ h => h
  · refine Triple.tryCatch (Triple.bind (keeps_http _ i) fun username => ?_) fun e => ?_
    · cases username.filter (· ≠ "") with
      | none => exact Triple.ret fun _ h => h
      | some username =>
        exact Triple.bind (keeps_sync (names_username _) i) fun _ =>
          Triple.ret fun _ h => h
    · cases e <;> exact Triple.ret fun _ h => h

theorem keeps_onContinue (address : Option String) (i : ℕ) :
    (onContinue address).Keeps (showing sdk jwt) i (Inv sdk jwt) := by
  unfold onContinue
  cases address.filter (· ≠ "") with
  | none => exact Triple.ret fun _ h => h
  | some address =>
    refine Triple.bind (keeps_sync (names_walletAddress _) i) fun _ => ?_
    refine Triple.bind (keeps_quiet (fun _ _ => rfl) i) fun userId => ?_
    split
    · exact Triple.ret fun _ h => h
    · exact keeps_tryConnect address (.push "/dashboard") i

theorem suspended_keeps (action : PageAction) :
    action.method.Suspended ∧ ∀ i, action.method.Keeps (showing sdk jwt) i (Inv sdk jwt) := by
  cases action with
  | connect => exact ⟨trivial, keeps_connect⟩
  | disconnect => exact ⟨trivial, keeps_disconnect⟩
  | signIn address => exact ⟨trivial, keeps_signIn address⟩
  | submit data => exact ⟨trivial, keeps_submit data⟩
  | save userId body =>
    refine ⟨?_, keeps_save userId body⟩
    simp only [PageAction.method, save]
    split <;> exact trivial
  | onContinue address =>
    refine ⟨?_, keeps_onContinue address⟩
    simp only [PageAction.method, onContinue]
    cases address.filter (· ≠ "") <;> exact trivial
  | load route =>
    exact ⟨trivial, fun i => keeps_tryCatch
      ((keeps_http _ i).bind fun _ => Triple.ret fun _ h => h)⟩

/-! ## Runs -/

theorem inv_start (sdk : WebAuth) (jwt : Jwt) (w : AuthWorld) : Inv sdk jwt (.start w) where
  serves := .initial trivial 0
  stored := .inl ⟨rfl, rfl⟩
  sent _ hx := absurd hx List.not_mem_nil

theorem Inv.turns {w : BrowserWorld} (h : Inv sdk jwt w)
    (ts : List (Turn PageChoice BackendTurn PageAction)) :
    Inv sdk jwt (Config.turns (pageMachine sdk jwt) PageAction.method ts ⟨[], w⟩).world := by
  have hsafe : Config.Safe (showing sdk jwt) (fun _ _ => Inv sdk jwt) (fun _ _ => Inv sdk jwt)
      (Config.turns (pageMachine sdk jwt) PageAction.method ts ⟨[], w⟩) :=
    Config.Safe.turns (P := fun _ _ => True) stable_inv
      (fun s a _ => by cases a <;> simp [Config.Meets, showing, Discipline.apart])
      suspended_keeps ts ⟨h, fun i p hp => by simp at hp⟩
      (Config.during_of_forall (fun _ _ => trivial) ts _)
  exact hsafe.1

/-- The call is handled in the name of the user that was shown when it left. -/
theorem Inv.shown (hjwt : jwt.Lawful) {w : BrowserWorld} (h : Inv sdk jwt w) {x : Sent}
    (hx : x ∈ w.sent) {user : AuthUser}
    (ha : w.server.answer x.ticket = some (.ok (.handled user))) :
    x.shown = some user.userId := by
  obtain ⟨call, s, hgave, hshown, hs⟩ := h.sent x hx
  have hq := h.serves.answer hgave ha
  cases call with
  | guarded route =>
    obtain ⟨now, revoked, hok⟩ := hq
    rw [← hshown]
    exact hs.served hjwt hok
  | register dto => exact hq.elim
  | walletStatus walletAddress => exact hq.elim
  | verifyChallenge signedXdr => exact hq.elim

/-- In every run of the pages of a browser next to the backend, interleaved in any way : the
storage has no token and no user, or a token that the backend has signed and the id of the user
it was signed for, and every call of the browser that the backend has let through its guard was
handled in the name of the user whose id was in the storage when it left. -/
theorem shown_user_served (sdk : WebAuth) (jwt : Jwt) (hjwt : jwt.Lawful) (w : AuthWorld)
    (ts : List (Turn PageChoice BackendTurn PageAction)) :
    ∀ w', w' = (Config.turns (pageMachine sdk jwt) PageAction.method ts ⟨[], .start w⟩).world →
      Coherent jwt w'.server.config.world w'.storage ∧
        ∀ x ∈ w'.sent, ∀ user, w'.server.answer x.ticket = some (.ok (.handled user)) →
          x.shown = some user.userId := by
  rintro w' rfl
  have h := (inv_start sdk jwt w).turns ts
  exact ⟨h.stored, fun x hx user ha => h.shown hjwt hx ha⟩

/-- `maya` signs up, and sets her profile. -/
def demoSignup : List (Turn PageChoice BackendTurn PageAction) :=
  [.call (.submit ⟨.creator, "maya@kreav", "Maya", "ID", none⟩), .act (.run 0 {}),
    .act (.env (.act (.run 0 {}))), .act (.env (.act (.run 0 { uuid := "maya" }))),
    .act (.env (.act (.run 0 { uuid := "jti" }))), .act (.run 0 {}), .act (.run 0 {}),
    .act (.run 0 {}), .act (.env (.act (.run 1 {})))]

/-- Her profile is set in the name that her browser shows. -/
theorem shown_user_served_maya : ∃ w', w' = (Config.turns (pageMachine demoAuth demoJwt)
      PageAction.method demoSignup ⟨[], .start ⟨demoAuthTables, 0, ∅, [], {}⟩⟩).world ∧
    ∃ x ∈ w'.sent, w'.server.answer x.ticket = some (.ok (.handled demoToken.payload.user)) ∧
      x.shown = some "maya" := by
  obtain ⟨w', hw'⟩ : ∃ w', w' = (Config.turns (pageMachine demoAuth demoJwt)
    PageAction.method demoSignup ⟨[], .start ⟨demoAuthTables, 0, ∅, [], {}⟩⟩).world := ⟨_, rfl⟩
  have hsent : w'.sent[1]? = some ⟨⟨0, 1⟩, some "maya"⟩ := by
    rw [hw']
    rfl
  have hanswer : w'.server.answer ⟨0, 1⟩ = some (.ok (.handled demoToken.payload.user)) := by
    rw [hw']
    rfl
  have hmem := List.mem_of_getElem? hsent
  exact ⟨w', hw', _, hmem, hanswer,
    (shown_user_served demoAuth demoJwt demoJwt_lawful _ demoSignup w' hw').2 _ hmem _ hanswer⟩

end Browser

end Kreav
