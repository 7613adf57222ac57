import Kreav.Sessions

/-!
# Whose a session is

Requests to the service of `Kreav.Sessions`, in any number and interleaved at their awaits in
any way, with faults, timers, restarts, new wallets and new names. `Genuine` says of a run that
no token is forged, a text which is valid reading as one that the service has signed, and that
random ids are new.

`sessions_authentic` : the guard attaches only identities of stored users, each with its role
and email, who registered in the run or for whose wallet a challenge was taken.
`session_active_iff` : a session works until it is seven days old or logs out, and a logout
ends no other.

`SessionProtocol.protocol` follows a method from what it has read to what it may sign and
revoke.
-/

open Async Prog

namespace Kreav

namespace AuthService

namespace SessionProtocol

/-! ## The protocol of a method -/

/-- What a method has at hand : a user it created, a challenge it took, the user of its
wallet, the identity from the guard, or this identity once its token is revoked. -/
inductive Phase
  | idle
  | created (user : User)
  | proved (challenge : ChallengeTx)
  | found (user : User)
  | active (user : AuthUser)
  | revoked (user : AuthUser)

/-- The user that the method may sign a token for. -/
def Phase.signer : Phase → Option User
  | .created user => some user
  | .found user => some user
  | _ => none

/-- How the answers change what a method has at hand. -/
inductive Reply : Phase → (r : AuthRequest) → Except AuthError r.Ans → Phase → Prop
  | failed {φ r e} (h : ∀ user, φ ≠ .revoked user) : Reply φ r (.error e) .idle
  | read {email x} : Reply .idle (.userFindUnique email) (.ok x) .idle
  | status {walletAddress x} : Reply .idle (.walletFindFirst walletAddress) (.ok x) .idle
  | created {data user} : Reply .idle (.userCreate data) (.ok user) (.created user)
  | proved {signedXdr tx} : Reply .idle (.takeChallenge signedXdr) (.ok tx) (.proved tx)
  | found {tx : ChallengeTx} {user : User} :
    Reply (.proved tx) (.walletFindFirst tx.clientAccountID) (.ok (some user)) (.found user)
  | unknown {tx : ChallengeTx} :
    Reply (.proved tx) (.walletFindFirst tx.clientAccountID) (.ok none) .idle
  | signed {φ : Phase} {user : User} {text : String} (h : φ.signer = some user) :
    Reply φ (.sign user.id user.role user.email) (.ok text) φ
  | activated {authorization user} :
    Reply .idle (.canActivate authorization) (.ok user) (.active user)
  | revoked {user : AuthUser} {jti : String} (h : user.jti = some jti) :
    Reply (.active user) (.revokeToken jti) (.ok ()) (.revoked user)

/-- What a method answers with what it has at hand. -/
inductive Emits : Phase → AuthEvent → Phase → Prop
  | registered {user} : Emits (.created user) (.registered user) .idle
  | loggedOut {user} : Emits (.revoked user) (.loggedOut user) .idle

/-- A method that has revoked its token answers the logout. -/
def Phase.Final : Phase → Prop
  | .revoked _ => False
  | _ => True

/-- The protocol of the methods. -/
def protocol : Protocol auth Phase where
  answers _ _ := True
  reply := Reply
  event := Emits
  final := Phase.Final
  rest := .idle

/-- A request that leads to one phase when it is answered, and to `idle` when it fails. -/
theorem follows_ask {r : AuthRequest} {φ : Phase} {Q : r.Ans → Phase → Prop}
    (hφ : ∀ user, φ ≠ .revoked user) (h : ∀ x, ∃ φ', Reply φ r (.ok x) φ' ∧ Q x φ') :
    (awaitAuth r).Follows protocol Q (fun _ => Phase.Final) φ :=
  Follows.ask (fun x _ => h x) fun _ _ => ⟨.idle, .failed hφ, trivial⟩

theorem conforms_register (dto : RegisterDto) :
    (register dto).Follows protocol (fun _ => Phase.Final) (fun _ => Phase.Final) .idle := by
  refine Follows.bind (R := fun _ φ => φ = .idle)
    (follows_ask (by simp) fun x => ⟨.idle, .read, rfl⟩) ?_
  rintro existing _ rfl
  cases existing with
  | true => exact trivial
  | false =>
    refine Follows.bind (R := fun user φ => φ = .created user)
      (follows_ask (by simp) fun user => ⟨.created user, .created, rfl⟩) ?_
    rintro user _ rfl
    refine Follows.bind (R := fun _ φ => φ = .created user)
      (follows_ask (by simp) fun text => ⟨.created user, .signed rfl, rfl⟩) ?_
    rintro text _ rfl
    exact Follows.bind (R := fun _ φ => φ = .idle) (Follows.signal .registered rfl)
      fun _ _ h => h ▸ trivial

theorem conforms_walletStatus (walletAddress : String) :
    (walletStatus walletAddress).Follows protocol (fun _ => Phase.Final) (fun _ => Phase.Final)
      .idle :=
  Follows.bind (R := fun _ φ => φ = .idle)
    (follows_ask (by simp) fun x => ⟨.idle, .status, rfl⟩) fun _ _ h => h ▸ trivial

theorem conforms_verify (signedXdr : String) :
    (verify signedXdr).Follows protocol (fun _ => Phase.Final) (fun _ => Phase.Final) .idle := by
  refine Follows.bind (R := fun tx φ => φ = .proved tx)
    (follows_ask (by simp) fun tx => ⟨.proved tx, .proved, rfl⟩) ?_
  rintro tx _ rfl
  refine Follows.bind (R := fun x φ => x = none ∧ φ = .idle ∨ ∃ user, x = some user ∧
    φ = .found user) (follows_ask (by simp) fun x => ?_) ?_
  · cases x with
    | none => exact ⟨.idle, .unknown, .inl ⟨rfl, rfl⟩⟩
    | some user => exact ⟨.found user, .found, .inr ⟨user, rfl, rfl⟩⟩
  · rintro _ _ (⟨rfl, rfl⟩ | ⟨user, rfl, rfl⟩)
    · exact trivial
    · exact Follows.bind (R := fun _ φ => φ = .found user)
        (follows_ask (by simp) fun text => ⟨.found user, .signed rfl, rfl⟩)
        fun _ _ h => h ▸ trivial

theorem conforms_guarded {α : Type} (authorization : Option String)
    {handler : AuthUser → AuthMethod α}
    (h : ∀ user, (handler user).Follows protocol (fun _ => Phase.Final) (fun _ => Phase.Final)
      (.active user)) :
    (guarded authorization handler).Follows protocol (fun _ => Phase.Final)
      (fun _ => Phase.Final) .idle := by
  refine Follows.bind (R := fun user φ => φ = .active user)
    (follows_ask (by simp) fun user => ⟨.active user, .activated, rfl⟩) ?_
  rintro user _ rfl
  exact h user

theorem conforms_logout (user : AuthUser) :
    (logout user).Follows protocol (fun _ => Phase.Final) (fun _ => Phase.Final)
      (.active user) := by
  unfold logout
  cases hjti : user.jti.filter (· ≠ "") with
  | none => exact trivial
  | some jti =>
    have hjti' : user.jti = some jti := (Option.filter_eq_some_iff.1 hjti).1
    refine Follows.bind (R := fun _ φ => φ = .revoked user)
      (follows_ask (by simp) fun _ => ⟨.revoked user, .revoked hjti', rfl⟩) ?_
    rintro _ _ rfl
    exact Follows.bind (R := fun _ φ => φ = .idle) (Follows.signal .loggedOut rfl)
      fun _ _ h => h ▸ trivial

theorem suspended_conforms (call : AuthCall) :
    call.method.Suspended ∧ call.method.Conforms protocol .idle := by
  cases call with
  | register dto => exact ⟨trivial, (conforms_register dto).bind fun _ _ h => h⟩
  | walletStatus address => exact ⟨trivial, (conforms_walletStatus address).bind fun _ _ h => h⟩
  | verify signedXdr => exact ⟨trivial, (conforms_verify signedXdr).bind fun _ _ h => h⟩
  | guarded authorization => exact ⟨trivial, conforms_guarded authorization fun _ => trivial⟩
  | logout authorization =>
    exact ⟨trivial, (conforms_guarded authorization conforms_logout).bind fun _ _ h => h⟩

/-- A method that waits has answered the logout of a token that it revoked. -/
theorem not_revoked {s : Config auth AuthWorld Unit} {φ : ℕ → Phase} (hs : s.Tracks protocol φ)
    (i : ℕ) (user : AuthUser) : φ i ≠ .revoked user := by
  intro hφ
  cases hp : s.threads[i]? with
  | none =>
    rw [hs.absent hp] at hφ
    cases hφ
  | some p =>
    obtain ⟨hsus, hconf⟩ := hs.thread hp
    rw [hφ] at hconf
    cases p with
    | ret a => exact hconf
    | raise e => exact hconf
    | emit v p => exact hsus
    | call r k =>
      obtain ⟨φ', hreply, -⟩ := hconf (.error (.unauthorized "")) trivial
      cases hreply with
      | failed h => exact h user rfl

/-! ## What a request can do -/

variable {sdk : WebAuth} {jwt : Jwt} {w w' : AuthWorld} {φ : ℕ → Phase} {i : ℕ}

/-- The answer to a request with the outcome `c`, and the world after it. -/
inductive Outcome (sdk : WebAuth) (jwt : Jwt) (c : AuthChoice) (w : AuthWorld) :
    (r : AuthRequest) → Except AuthError r.Ans → AuthWorld → Prop
  | failed {r e} : Outcome sdk jwt c w r (.error e) w
  | stored {data user tables e} (h : w.tables.createUser user = .ok tables) :
    Outcome sdk jwt c w (.userCreate data) (.error e) (w.store user tables)
  | spent {signedXdr e} (usedChallenges : UsedChallenges) :
    Outcome sdk jwt c w (.takeChallenge signedXdr) (.error e) { w with usedChallenges }
  | read {email x} : Outcome sdk jwt c w (.userFindUnique email) (.ok x) w
  | wallet {walletAddress x} (h : w.tables.findWallet walletAddress = x) :
    Outcome sdk jwt c w (.walletFindFirst walletAddress) (.ok x) w
  | created {data user tables} (h : w.tables.createUser user = .ok tables) :
    Outcome sdk jwt c w (.userCreate data) (.ok user) (w.store user tables)
  | taken {signedXdr challenge} (usedChallenges : UsedChallenges)
    (h : sdk.readChallengeTx signedXdr w.now = some challenge) :
    Outcome sdk jwt c w (.takeChallenge signedXdr) (.ok challenge)
      (w.accept challenge usedChallenges)
  | signed {sub role email} : Outcome sdk jwt c w (.sign sub role email)
    (.ok (jwt.sign ⟨sub, role, email, c.uuid⟩ w.now)) (w.issue ⟨sub, role, email, c.uuid⟩)
  | activated {authorization user}
    (h : canActivate jwt authorization w.now w.revokedTokens = .ok user) :
    Outcome sdk jwt c w (.canActivate authorization) (.ok user) (w.letIn user)
  | revoked {jti} : Outcome sdk jwt c w (.revokeToken jti) (.ok ()) (w.revoke jti)

theorem outcome_createUser (data : RegisterDto) (c : AuthChoice) (w : AuthWorld) :
    Outcome sdk jwt c w (.userCreate data) (w.statement c (w.createUser data c.uuid)).1
      (w.statement c (w.createUser data c.uuid)).2 := by
  have hstore : (∃ e, w.createUser data c.uuid = (.error e, w)) ∨ ∃ user tables,
      w.tables.createUser user = .ok tables ∧
        w.createUser data c.uuid = (.ok user, w.store user tables) := by
    simp only [AuthWorld.createUser]
    split
    · exact .inl ⟨_, rfl⟩
    · next tables h => exact .inr ⟨_, tables, h, rfl⟩
  unfold AuthWorld.statement
  rcases hstore with ⟨e, hx⟩ | ⟨user, tables, h, hx⟩
  · rw [hx]
    cases c.fault <;> exact .failed
  · rw [hx]
    cases c.fault with
    | none => exact .created h
    | lost => exact .failed
    | unacked => exact .stored h

theorem takeChallenge_ok {signedXdr : String} {now : ℕ} {used used' : UsedChallenges}
    {tx : ChallengeTx} (h : takeChallenge sdk signedXdr now used = (.ok tx, used')) :
    sdk.readChallengeTx signedXdr now = some tx := by
  unfold takeChallenge at h
  by_cases hused : sdk.sha256 signedXdr ∈ used
  · simp [hused] at h
  · simp only [if_neg hused] at h
    cases hread : sdk.readChallengeTx signedXdr now with
    | none => simp [hread] at h
    | some challenge => simp_all

/-- A challenge that is read carries the signatures of the server and of its wallet. -/
theorem readChallengeTx_some {signedXdr : String} {now : ℕ} {tx : ChallengeTx}
    (h : sdk.readChallengeTx signedXdr now = some tx) :
    sdk.decode signedXdr = some tx ∧ sdk.signed signedXdr = true := by
  unfold WebAuth.readChallengeTx at h
  split at h
  · cases h
  next tx' hdecode =>
  split at h
  · next hsigned =>
    obtain rfl := Option.some.inj h
    exact ⟨hdecode, hsigned.1⟩
  · cases h

theorem outcome_exec (r : AuthRequest) (c : AuthChoice) (w : AuthWorld) :
    Outcome sdk jwt c w r (authExec sdk jwt r c w).1 (authExec sdk jwt r c w).2 := by
  cases r with
  | userFindUnique email =>
    simp only [authExec, AuthWorld.statement]
    cases c.fault with
    | none => exact .read
    | lost => exact .failed
    | unacked => exact .failed
  | userCreate data => exact outcome_createUser data c w
  | takeChallenge signedXdr =>
    simp only [authExec, AuthWorld.take]
    rcases htake : takeChallenge sdk signedXdr w.now w.usedChallenges with ⟨e | tx, used⟩
    · exact .spent used
    · exact .taken used (takeChallenge_ok htake)
  | walletFindFirst walletAddress =>
    simp only [authExec, AuthWorld.statement]
    cases c.fault with
    | none => exact .wallet rfl
    | lost => exact .failed
    | unacked => exact .failed
  | sign sub role email => exact .signed
  | canActivate authorization =>
    simp only [authExec, AuthWorld.activate]
    cases h : canActivate jwt authorization w.now w.revokedTokens with
    | error e => exact .failed
    | ok user => exact .activated h
  | revokeToken jti => exact .revoked

/-! ## What stays -/

/-- Users keep their id, role and email, and of the rest nothing is lost. -/
structure Extends (w w' : AuthWorld) : Prop where
  users : ∀ u ∈ w.tables.users, ∃ u' ∈ w'.tables.users,
    u'.id = u.id ∧ u'.role = u.role ∧ u'.email = u.email
  wallets : w.tables.wallets ⊆ w'.tables.wallets
  created : w.history.created ⊆ w'.history.created
  taken : w.history.taken ⊆ w'.history.taken
  issued : w.history.issued ⊆ w'.history.issued

/-- Worlds with the same tables, but for new tokens. -/
theorem Extends.of_tables (ht : w'.tables = w.tables) (hc : w'.history.created = w.history.created)
    (hk : w.history.taken ⊆ w'.history.taken) (hi : w.history.issued ⊆ w'.history.issued) :
    Extends w w' where
  users u hu := ⟨u, ht ▸ hu, rfl, rfl, rfl⟩
  wallets := ht ▸ List.Subset.refl _
  created := hc ▸ List.Subset.refl _
  taken := hk
  issued := hi

theorem createUser_ok {user : User} {t t' : AuthTables} (h : t.createUser user = .ok t') :
    t'.users = t.users ++ [user] ∧ t'.wallets = t.wallets ∧ user.id ∉ t.users.map (·.id) ∧
      user.email ∉ t.users.map (·.email) := by
  unfold AuthTables.createUser at h
  split at h
  · next hnew =>
    obtain rfl := Except.ok.inj h
    exact ⟨rfl, rfl, hnew⟩
  · cases h

theorem extends_store {user : User} {tables : AuthTables}
    (h : w.tables.createUser user = .ok tables) : Extends w (w.store user tables) := by
  obtain ⟨husers, hwallets, -, -⟩ := createUser_ok h
  refine ⟨fun u hu => ⟨u, ?_, rfl, rfl, rfl⟩, ?_, List.subset_append_left _ _,
    List.Subset.refl _, List.Subset.refl _⟩
  · simp only [AuthWorld.store, husers]
    exact List.mem_append_left _ hu
  · simp only [AuthWorld.store, hwallets]
    exact List.Subset.refl _

theorem Outcome.extends {r : AuthRequest} {c : AuthChoice} {x : Except AuthError r.Ans}
    (h : Outcome sdk jwt c w r x w') : Extends w w' := by
  cases h with
  | stored h => exact extends_store h
  | created h => exact extends_store h
  | taken used h =>
    exact .of_tables rfl rfl (List.subset_append_left _ _) (List.Subset.refl _)
  | signed => exact .of_tables rfl rfl (List.Subset.refl _) (List.subset_append_left _ _)
  | _ => exact .of_tables rfl rfl (List.Subset.refl _) (List.Subset.refl _)

theorem extends_log (v : AuthEvent) (w : AuthWorld) : Extends w (w.log v) := by
  cases v <;> exact .of_tables rfl rfl (List.Subset.refl _) (List.Subset.refl _)

theorem extends_rename (id name : String) (w : AuthWorld) :
    Extends w (w.env (.rename id name)) where
  users u hu := by
    refine ⟨if u.id = id then { u with name } else u, List.mem_map_of_mem hu, ?_⟩
    split <;> exact ⟨rfl, rfl, rfl⟩
  wallets := List.Subset.refl _
  created := List.Subset.refl _
  taken := List.Subset.refl _
  issued := List.Subset.refl _

theorem extends_connect (wallet : Wallet) (w : AuthWorld) :
    Extends w (w.env (.connect wallet)) := by
  simp only [AuthWorld.env, AuthTables.connect]
  split
  · exact ⟨fun u hu => ⟨u, hu, rfl, rfl, rfl⟩, List.subset_append_left _ _,
      List.Subset.refl _, List.Subset.refl _, List.Subset.refl _⟩
  · exact .of_tables rfl rfl (List.Subset.refl _) (List.Subset.refl _)

theorem extends_env (e : AuthStep) (w : AuthWorld) : Extends w (w.env e) := by
  cases e with
  | wait ms => exact .of_tables rfl rfl (List.Subset.refl _) (List.Subset.refl _)
  | timer nonce =>
    simp only [AuthWorld.env]
    split <;> exact .of_tables rfl rfl (List.Subset.refl _) (List.Subset.refl _)
  | restart => exact .of_tables rfl rfl (List.Subset.refl _) (List.Subset.refl _)
  | rename id name => exact extends_rename id name w
  | connect wallet => exact extends_connect wallet w

/-! ## Whose a token is -/

/-- The challenge was taken, from a text with the signatures of the server and its wallet. -/
def Proved (sdk : WebAuth) (w : AuthWorld) (challenge : ChallengeTx) : Prop :=
  challenge ∈ w.history.taken ∧
    ∃ text, sdk.decode text = some challenge ∧ sdk.signed text = true

/-- A user is stored with this role and email, and was created in the run or has a wallet that
proved itself by a challenge. -/
structure Entitled (sdk : WebAuth) (w : AuthWorld) (id role email : String) : Prop where
  stored : ∃ u ∈ w.tables.users, u.id = id ∧ u.role = role ∧ u.email = email
  origin : (∃ u ∈ w.history.created, u.id = id) ∨ ∃ tx, Proved sdk w tx ∧
    ∃ x ∈ w.tables.wallets, x.walletAddress = tx.clientAccountID ∧ x.creatorId = id

/-- The identity is that of a token that was signed. -/
def Signed (w : AuthWorld) (user : AuthUser) : Prop :=
  ∃ x ∈ w.history.issued, x.token.payload.user = user

/-- What is true of what a method has at hand. -/
def Phase.Holds (sdk : WebAuth) (w : AuthWorld) : Phase → Prop
  | .idle => True
  | .created user => Entitled sdk w user.id user.role user.email
  | .found user => Entitled sdk w user.id user.role user.email
  | .proved challenge => Proved sdk w challenge
  | .active user => Signed w user
  | .revoked user => Signed w user

theorem Entitled.mono {id role email : String} (h : Entitled sdk w id role email)
    (he : Extends w w') : Entitled sdk w' id role email where
  stored := by
    obtain ⟨u, hu, rfl, rfl, rfl⟩ := h.stored
    exact he.users u hu
  origin := by
    rcases h.origin with ⟨u, hu, hid⟩ | ⟨tx, htx, x, hx, hid⟩
    · exact .inl ⟨u, he.created hu, hid⟩
    · exact .inr ⟨tx, ⟨he.taken htx.1, htx.2⟩, x, he.wallets hx, hid⟩

theorem Signed.mono {user : AuthUser} (h : Signed w user) (he : Extends w w') :
    Signed w' user := by
  obtain ⟨x, hx, hu⟩ := h
  exact ⟨x, he.issued hx, hu⟩

theorem Phase.Holds.mono {ψ : Phase} (h : ψ.Holds sdk w) (he : Extends w w') : ψ.Holds sdk w' := by
  cases ψ with
  | idle => exact trivial
  | created user => exact Entitled.mono h he
  | found user => exact Entitled.mono h he
  | proved tx => exact ⟨he.taken h.1, h.2⟩
  | active user => exact Signed.mono h he
  | revoked user => exact Signed.mono h he

theorem Phase.Holds.entitled {ψ : Phase} {user : User} (h : ψ.Holds sdk w)
    (hs : ψ.signer = some user) : Entitled sdk w user.id user.role user.email := by
  cases ψ with
  | created user' =>
    obtain rfl := Option.some.inj hs
    exact h
  | found user' =>
    obtain rfl := Option.some.inj hs
    exact h
  | _ => cases hs

/-- A user that has just been stored. -/
theorem entitled_store {user : User} {tables : AuthTables}
    (h : w.tables.createUser user = .ok tables) :
    Entitled sdk (w.store user tables) user.id user.role user.email where
  stored := by
    refine ⟨user, ?_, rfl, rfl, rfl⟩
    simp [AuthWorld.store, (createUser_ok h).1]
  origin := .inl ⟨user, List.mem_append_right _ (List.mem_singleton_self _), rfl⟩

/-- The user of the wallet of a challenge. -/
theorem entitled_findWallet {tx : ChallengeTx} {user : User} (htx : Proved sdk w tx)
    (h : w.tables.findWallet tx.clientAccountID = some user) :
    Entitled sdk w user.id user.role user.email := by
  obtain ⟨x, hx, hu⟩ := Option.bind_eq_some_iff.1 h
  have hid : user.id = x.creatorId := by simpa using List.find?_some hu
  have haddress : x.walletAddress = tx.clientAccountID := by simpa using List.find?_some hx
  exact ⟨⟨user, List.mem_of_find?_eq_some hu, rfl, rfl, rfl⟩,
    .inr ⟨tx, htx, x, List.mem_of_find?_eq_some hx, haddress, hid.symm⟩⟩

/-! ## Sessions -/

/-- The condition on the steps of a run : tokens are not forged, so that a text that is valid
reads as one the service has signed, and a random id is new. -/
def Authentic (jwt : Jwt) (w : AuthWorld) : AuthRequest → AuthChoice → Prop
  | .canActivate authorization, _ => ∀ text ∈ bearerToken authorization,
    ∀ p ∈ jwt.verify text w.now, ∃ x ∈ w.history.issued,
      jwt.verify (jwt.sign x.token x.iat) w.now = some p
  | .sign _ _ _, c => c.uuid ≠ "" ∧ c.uuid ∉ w.history.issued.map (·.token.jti)
  | _, _ => True

/-- A token that is valid is less than seven days old. -/
theorem live_of_verify_sign (hjwt : jwt.Lawful) {t : Token} {iat now : ℕ} {p : JwtPayload}
    (h : jwt.verify (jwt.sign t iat) now = some p) :
    t.payload = p ∧ now / 1000 < iat / 1000 + expiresInS := by
  rw [hjwt.verify_sign] at h
  split at h
  · next hlive => exact ⟨Option.some.inj h, hlive⟩
  · cases h

theorem canActivate_ok {authorization : Option String} {now : ℕ} {revoked : List String}
    {user : AuthUser} (h : canActivate jwt authorization now revoked = .ok user) :
    ∃ text ∈ bearerToken authorization, ∃ p ∈ jwt.verify text now,
      ¬ p.Revoked revoked ∧ p.user = user := by
  unfold canActivate at h
  split at h
  · cases h
  next text htext =>
  split at h
  · cases h
  next p hp =>
  split at h
  · cases h
  next hrevoked => exact ⟨text, htext, p, hp, hrevoked, Except.ok.inj h⟩

/-- What holds of all sessions. The ids of the tokens differ, and the revoked ones are those
that have logged out. -/
structure Inv (sdk : WebAuth) (w : AuthWorld) (φ : ℕ → Phase) : Prop where
  phases : ∀ i, (φ i).Holds sdk w
  issued : ∀ x ∈ w.history.issued, Entitled sdk w x.token.sub x.token.role x.token.email
  jtis : (w.history.issued.map (·.token.jti)).Nodup
  jti_ne : "" ∉ w.history.issued.map (·.token.jti)
  admitted : ∀ a ∈ w.history.admitted, ∃ x ∈ w.history.issued,
    x.token.payload.user = a.user ∧ a.time / 1000 < x.iat / 1000 + expiresInS
  loggedOut : ∀ user ∈ w.history.loggedOut, Signed w user
  revoked : ∀ jti, jti ∈ w.revokedTokens ↔
    ∃ user, (user ∈ w.history.loggedOut ∨ ∃ i, φ i = .revoked user) ∧ user.jti = some jti

namespace Inv

/-- A step that touches no session. -/
theorem of_extends (h : Inv sdk w φ) (he : Extends w w')
    (hi : w'.history.issued = w.history.issued) (ha : w'.history.admitted = w.history.admitted)
    (hl : w'.history.loggedOut = w.history.loggedOut)
    (hr : w'.revokedTokens = w.revokedTokens) : Inv sdk w' φ where
  phases i := (h.phases i).mono he
  issued x hx := (h.issued x (hi ▸ hx)).mono he
  jtis := hi ▸ h.jtis
  jti_ne := hi ▸ h.jti_ne
  admitted a hx := hi ▸ h.admitted a (ha ▸ hx)
  loggedOut user hx := (h.loggedOut user (hl ▸ hx)).mono he
  revoked jti := by
    rw [hr, hl]
    exact h.revoked jti

/-- A method goes on, with no part in a logout. -/
theorem update (h : Inv sdk w φ) {ψ : Phase} (hψ : ψ.Holds sdk w)
    (hold : ∀ user, φ i ≠ .revoked user) (hnew : ∀ user, ψ ≠ .revoked user) :
    Inv sdk w (Function.update φ i ψ) where
  phases := (Function.forall_update_iff φ fun _ χ => χ.Holds sdk w).2 ⟨hψ, fun j _ => h.phases j⟩
  issued := h.issued
  jtis := h.jtis
  jti_ne := h.jti_ne
  admitted := h.admitted
  loggedOut := h.loggedOut
  revoked jti := by
    have hsame : ∀ user, (∃ j, Function.update φ i ψ j = .revoked user) ↔
        ∃ j, φ j = .revoked user := fun user =>
      ⟨fun ⟨j, hj⟩ => ⟨j, Phases.of_update (T := (· = Phase.revoked user))
        (fun he => absurd he (hnew user)) j hj⟩,
        fun hj => Phases.exists_update (T := (· = Phase.revoked user)) hj
          fun he => absurd he (hold user)⟩
    simp only [h.revoked jti, hsame]

/-- A token for a user. -/
theorem issue (h : Inv sdk w φ) {token : Token}
    (he : Entitled sdk w token.sub token.role token.email) (hne : token.jti ≠ "")
    (hnew : token.jti ∉ w.history.issued.map (·.token.jti)) : Inv sdk (w.issue token) φ := by
  have hext : Extends w (w.issue token) :=
    .of_tables rfl rfl (List.Subset.refl _) (List.subset_append_left _ _)
  refine ⟨fun i => (h.phases i).mono hext, fun x hx => ?_, nodup_map_concat h.jtis hnew, ?_,
    fun a ha => ?_, fun user hu => (h.loggedOut user hu).mono hext, h.revoked⟩
  · rcases List.mem_append.1 hx with hx | hx
    · exact (h.issued x hx).mono hext
    · obtain rfl := List.mem_singleton.1 hx
      exact he.mono hext
  · simp only [AuthWorld.issue, List.map_append, List.mem_append, List.map_singleton,
      List.mem_singleton, not_or]
    exact ⟨h.jti_ne, hne.symm⟩
  · obtain ⟨x, hx, hp⟩ := h.admitted a ha
    exact ⟨x, hext.issued hx, hp⟩

/-- An identity is attached. -/
theorem letIn (h : Inv sdk w φ) {user : AuthUser} (hx : ∃ x ∈ w.history.issued,
    x.token.payload.user = user ∧ w.now / 1000 < x.iat / 1000 + expiresInS) :
    Inv sdk (w.letIn user) φ where
  phases i := (h.phases i).mono
    (.of_tables rfl rfl (List.Subset.refl _) (List.Subset.refl _))
  issued x hx := (h.issued x hx).mono
    (.of_tables rfl rfl (List.Subset.refl _) (List.Subset.refl _))
  jtis := h.jtis
  jti_ne := h.jti_ne
  admitted a ha := by
    rcases List.mem_append.1 ha with ha | ha
    · exact h.admitted a ha
    · obtain rfl := List.mem_singleton.1 ha
      exact hx
  loggedOut := h.loggedOut
  revoked := h.revoked

/-- A logout revokes its token. -/
theorem revoke (h : Inv sdk w φ) {user : AuthUser} {jti : String} (hi : φ i = .active user)
    (hjti : user.jti = some jti) :
    Inv sdk (w.revoke jti) (Function.update φ i (.revoked user)) where
  phases := (Function.forall_update_iff φ fun _ χ => χ.Holds sdk (w.revoke jti)).2
    ⟨by have := h.phases i; rwa [hi] at this, fun j _ => (h.phases j).mono
      (.of_tables rfl rfl (List.Subset.refl _) (List.Subset.refl _))⟩
  issued x hx := (h.issued x hx).mono
    (.of_tables rfl rfl (List.Subset.refl _) (List.Subset.refl _))
  jtis := h.jtis
  jti_ne := h.jti_ne
  admitted := h.admitted
  loggedOut := h.loggedOut
  revoked jti' := by
    rw [AuthWorld.revoke, List.mem_cons, h.revoked jti']
    constructor
    · rintro (rfl | ⟨user', hor | ⟨j, hj⟩, hjti'⟩)
      · exact ⟨user, .inr ⟨i, Function.update_self ..⟩, hjti⟩
      · exact ⟨user', .inl hor, hjti'⟩
      · have hij : j ≠ i := fun he => by rw [he, hi] at hj; cases hj
        exact ⟨user', .inr ⟨j, by rwa [Function.update_of_ne hij]⟩, hjti'⟩
    · rintro ⟨user', hor | ⟨j, hj⟩, hjti'⟩
      · exact .inr ⟨user', .inl hor, hjti'⟩
      · by_cases hij : j = i
        · rw [hij, Function.update_self] at hj
          obtain rfl := Phase.revoked.inj hj
          exact .inl (Option.some.inj (hjti'.symm.trans hjti))
        · rw [Function.update_of_ne hij] at hj
          exact .inr ⟨user', .inr ⟨j, hj⟩, hjti'⟩

/-- A logout is answered. -/
theorem loggedOut_log (h : Inv sdk w φ) {user : AuthUser} (hi : φ i = .revoked user) :
    Inv sdk (w.log (.loggedOut user)) (Function.update φ i .idle) where
  phases := (Function.forall_update_iff φ fun _ χ => χ.Holds sdk _).2
    ⟨trivial, fun j _ => (h.phases j).mono (extends_log _ w)⟩
  issued x hx := (h.issued x hx).mono (extends_log _ w)
  jtis := h.jtis
  jti_ne := h.jti_ne
  admitted := h.admitted
  loggedOut user' hu := by
    rcases List.mem_append.1 hu with hu | hu
    · exact (h.loggedOut user' hu).mono (extends_log _ w)
    · obtain rfl := List.mem_singleton.1 hu
      have hsigned := h.phases i
      rw [hi] at hsigned
      exact Signed.mono hsigned (extends_log _ w)
  revoked jti := by
    have hiff : ∀ user', (user' ∈ (w.log (.loggedOut user)).history.loggedOut ∨
        ∃ j, Function.update φ i .idle j = .revoked user') ↔
          user' ∈ w.history.loggedOut ∨ ∃ j, φ j = .revoked user' := by
      intro user'
      simp only [AuthWorld.log, List.mem_append, List.mem_singleton, or_assoc]
      refine or_congr_right ⟨?_, ?_⟩
      · rintro (rfl | ⟨j, hj⟩)
        · exact ⟨i, hi⟩
        · exact ⟨j, Phases.of_update (T := (· = Phase.revoked user')) (fun he => by cases he)
          j hj⟩
      · rintro ⟨j, hj⟩
        by_cases hij : j = i
        · rw [hij, hi] at hj
          exact .inl (Phase.revoked.inj hj).symm
        · exact .inr ⟨j, by rwa [Function.update_of_ne hij]⟩
    simp only [hiff]
    exact h.revoked jti

/-- What a step of the outside leaves, where no logout waits for its answer. -/
theorem env (h : Inv sdk w φ) (hφ : ∀ i user, φ i ≠ .revoked user) (e : AuthStep) :
    Inv sdk (w.env e) φ := by
  have he := extends_env e w
  cases e with
  | restart =>
    exact ⟨fun i => (h.phases i).mono he, fun x hx => (h.issued x hx).mono he, h.jtis, h.jti_ne,
      h.admitted, fun user hu => absurd hu List.not_mem_nil, fun jti => by
        simp [AuthWorld.env, hφ]⟩
  | timer nonce =>
    by_cases hdue : ∃ due ∈ w.usedChallenges.lookup nonce, due ≤ w.now
    · simp only [AuthWorld.env, if_pos hdue] at he ⊢
      exact h.of_extends he rfl rfl rfl rfl
    · simp only [AuthWorld.env, if_neg hdue]
      exact h
  | wait ms => exact h.of_extends he rfl rfl rfl rfl
  | rename id name => exact h.of_extends he rfl rfl rfl rfl
  | connect wallet => exact h.of_extends he rfl rfl rfl rfl

theorem reply (hjwt : jwt.Lawful) {r : AuthRequest} {c : AuthChoice}
    {x : Except AuthError r.Ans} {φ' : Phase} (h : Inv sdk w φ) (hreply : Reply (φ i) r x φ')
    (hout : Outcome sdk jwt c w r x w') (hvalid : Authentic jwt w r c) :
    Inv sdk w' (Function.update φ i φ') := by
  have he := hout.extends
  generalize hi : φ i = ψ at hreply
  have hold : ∀ {ψ'}, ψ = ψ' → (∀ user, ψ' ≠ .revoked user) → ∀ user, φ i ≠ .revoked user :=
    fun hψ hne => hi.trans hψ ▸ hne
  cases hreply with
  | failed hne =>
    have hw : Inv sdk w' φ := by
      cases hout <;> exact h.of_extends he rfl rfl rfl rfl
    exact hw.update trivial (hold rfl hne) (by simp)
  | read =>
    cases hout
    exact h.update trivial (hold rfl (by simp)) (by simp)
  | status =>
    cases hout
    exact h.update trivial (hold rfl (by simp)) (by simp)
  | unknown =>
    cases hout
    exact h.update trivial (hold rfl (by simp)) (by simp)
  | created =>
    cases hout with
    | created hstore =>
      exact (h.of_extends he rfl rfl rfl rfl).update (entitled_store hstore)
        (hold rfl (by simp)) (by simp)
  | proved =>
    cases hout with
    | taken used hread =>
      exact (h.of_extends he rfl rfl rfl rfl).update
        ⟨List.mem_append_right _ (List.mem_singleton_self _), _, readChallengeTx_some hread⟩
        (hold rfl (by simp)) (by simp)
  | found =>
    cases hout with
    | wallet hfound =>
      have htx := h.phases i
      rw [hi] at htx
      exact h.update (entitled_findWallet htx hfound) (hold rfl (by simp)) (by simp)
  | signed hs =>
    cases hout with
    | signed =>
      have hentitled := Phase.Holds.entitled (h.phases i) (hi.symm ▸ hs)
      rw [← hi, Function.update_eq_self]
      exact h.issue hentitled hvalid.1 hvalid.2
  | activated =>
    cases hout with
    | activated hok =>
      obtain ⟨text, htext, p, hp, -, rfl⟩ := canActivate_ok hok
      obtain ⟨x, hx, hverify⟩ := hvalid text htext p hp
      obtain ⟨rfl, hiat⟩ := live_of_verify_sign hjwt hverify
      exact (h.letIn ⟨x, hx, rfl, hiat⟩).update ⟨x, hx, rfl⟩ (hold rfl (by simp)) (by simp)
  | revoked hjti =>
    cases hout
    exact h.revoke hi hjti

theorem event (h : Inv sdk w φ) {v : AuthEvent} {φ' : Phase} (hv : Emits (φ i) v φ') :
    Inv sdk (w.log v) (Function.update φ i φ') := by
  generalize hi : φ i = ψ at hv
  cases hv with
  | registered =>
    exact (h.of_extends (extends_log _ w) rfl rfl rfl rfl).update trivial (by simp [hi]) (by simp)
  | loggedOut => exact h.loggedOut_log hi

/-- A crash ends all methods. -/
theorem crash (h : Inv sdk w φ) (hφ : ∀ i user, φ i ≠ .revoked user) :
    Inv sdk w fun _ => .idle where
  phases _ := trivial
  issued := h.issued
  jtis := h.jtis
  jti_ne := h.jti_ne
  admitted := h.admitted
  loggedOut := h.loggedOut
  revoked jti := by
    rw [h.revoked jti]
    simp [hφ]

/-- At the start no token was signed. -/
theorem initial (tables : AuthTables) (now : ℕ) :
    Inv sdk ⟨tables, now, ∅, [], {}⟩ fun _ => .idle where
  phases _ := trivial
  issued x hx := absurd hx List.not_mem_nil
  jtis := List.nodup_nil
  jti_ne := List.not_mem_nil
  admitted a ha := absurd ha List.not_mem_nil
  loggedOut user hu := absurd hu List.not_mem_nil
  revoked jti := by simp

end Inv

/-- The turns of a run, but for steps of the outside. -/
def Inside (jwt : Jwt) (s : Config auth AuthWorld Unit) (a : Action AuthChoice AuthStep) : Prop :=
  s.Meets (Authentic jwt) (fun _ _ => False) a

theorem invariant (hjwt : jwt.Lawful) :
    protocol.Invariant (authMachine sdk jwt) (Inside jwt) (Inv sdk) where
  final_rest := trivial
  event h hv := h.event hv
  ended {w φ i} h hfinal := by
    refine h.update trivial (fun user he => ?_) (by simp [protocol])
    rw [he] at hfinal
    exact hfinal
  outside _ he := he.elim
  reply h hs hget hP := ⟨trivial, fun φ' hφ' hk =>
    .update hk (h.reply hjwt hφ' (outcome_exec _ _ _) (hP _ ⟨_, hget, rfl⟩))⟩

/-- The condition on the turns of a run. -/
def Genuine (jwt : Jwt) (s : Config auth AuthWorld Unit) :
    Turn AuthChoice AuthStep AuthCall → Prop
  | .act a => s.Meets (Authentic jwt) (fun _ _ => True) a
  | _ => True

/-- The states that requests reach from the tables, with nothing signed at the start. -/
def reached (sdk : WebAuth) (jwt : Jwt) (tables : AuthTables) (now : ℕ)
    (ts : List (Turn AuthChoice AuthStep AuthCall)) : Config auth AuthWorld Unit :=
  Config.turns (authMachine sdk jwt) AuthCall.method ts ⟨[], ⟨tables, now, ∅, [], {}⟩⟩

/-- A run of requests whose turns meet the condition. -/
def Run (sdk : WebAuth) (jwt : Jwt) (tables : AuthTables) (now : ℕ)
    (ts : List (Turn AuthChoice AuthStep AuthCall)) : Prop :=
  Config.During (authMachine sdk jwt) AuthCall.method (Genuine jwt) ts
    ⟨[], ⟨tables, now, ∅, [], {}⟩⟩

theorem inv_reached (hjwt : jwt.Lawful) {tables : AuthTables} {now : ℕ}
    {ts : List (Turn AuthChoice AuthStep AuthCall)} (h : Run sdk jwt tables now ts) :
    ∃ φ, (reached sdk jwt tables now ts).Tracks protocol φ ∧
      Inv sdk (reached sdk jwt tables now ts).world φ := by
  refine Config.inv_turns (I := fun s => ∃ φ, s.Tracks protocol φ ∧ Inv sdk s.world φ) ?_ ts _
    ⟨fun _ => .idle, ⟨fun hp => by simp at hp, fun _ => rfl⟩, Inv.initial tables now⟩ h
  rintro s t ⟨φ, hs, hI⟩ ht
  cases t with
  | act a =>
    cases a with
    | run i c => exact (invariant hjwt).act (a := .run i c) hs hI ht
    | env e => exact ⟨φ, ⟨hs.thread, hs.absent⟩, hI.env (not_revoked hs) e⟩
  | call k =>
    obtain ⟨hsus, hp⟩ := suspended_conforms k
    exact ⟨_, hs.call hsus hp, hI.update trivial (not_revoked hs _) (by simp)⟩
  | crash => exact ⟨_, ⟨fun hp => by simp [Config.turn] at hp, fun _ => rfl⟩,
    hI.crash (not_revoked hs)⟩

/-! ## The guard -/

theorem bearerToken_bearer {text : String} (h : text ≠ "") :
    bearerToken (some ("Bearer " ++ text)) = some text := by
  have hlist : ("Bearer " ++ text).toList = "Bearer ".toList ++ text.toList :=
    String.toList_append
  have hdrop : ("Bearer " ++ text).toList.drop 7 = text.toList := by
    rw [hlist]
    rfl
  have hne : text.toList ≠ [] := by simpa using h
  simp only [bearerToken, Option.bind_some, hdrop]
  rw [if_pos ⟨by rw [hlist]; simp, hne⟩, String.ofList_toList]

/-- The guard on a token of the service. -/
theorem canActivate_sign (hjwt : jwt.Lawful) (t : Token) (iat now : ℕ) (revoked : List String) :
    canActivate jwt (some ("Bearer " ++ jwt.sign t iat)) now revoked = .ok t.payload.user ↔
      now / 1000 < iat / 1000 + expiresInS ∧ ¬ t.payload.Revoked revoked := by
  simp only [canActivate, bearerToken_bearer (hjwt.sign_ne t iat), hjwt.verify_sign]
  by_cases hlive : now / 1000 < iat / 1000 + expiresInS
  · by_cases hrevoked : t.payload.Revoked revoked <;> simp [hlive, hrevoked]
  · simp [hlive]

/-- A token is revoked when it has logged out. -/
theorem Inv.revoked_iff (h : Inv sdk w φ) (hφ : ∀ i user, φ i ≠ .revoked user) {x : Issue}
    (hx : x ∈ w.history.issued) :
    x.token.payload.Revoked w.revokedTokens ↔ x.token.payload.user ∈ w.history.loggedOut := by
  have hne : x.token.jti ≠ "" := fun he => h.jti_ne (he ▸ List.mem_map_of_mem hx)
  have hmem : x.token.payload.Revoked w.revokedTokens ↔ x.token.jti ∈ w.revokedTokens := by
    simp [JwtPayload.Revoked, Token.payload, hne]
  rw [hmem, h.revoked]
  constructor
  · rintro ⟨user, hor | ⟨i, hi⟩, hjti⟩
    · obtain ⟨y, hy, rfl⟩ := h.loggedOut user hor
      obtain rfl := List.inj_on_of_nodup_map h.jtis hy hx (Option.some.inj hjti)
      exact hor
    · exact absurd hi (hφ i user)
  · exact fun hout => ⟨_, .inl hout, rfl⟩

end SessionProtocol

end AuthService

open AuthService SessionProtocol

/-! ### A session -/

/-- A field in a text : each character after a plus, and a comma at the end. -/
def pack (field : List Char) : List Char :=
  field.flatMap (fun c => ['+', c]) ++ [',']

/-- The fields of a text. -/
def unpack : List Char → List (List Char)
  | ',' :: rest => [] :: unpack rest
  | '+' :: c :: rest => (unpack rest).modifyHead (c :: ·)
  | _ => []

theorem unpack_pack (field rest : List Char) :
    unpack (pack field ++ rest) = field :: unpack rest := by
  induction field with
  | nil => rfl
  | cons c field ih =>
    have hpack : pack (c :: field) ++ rest = '+' :: c :: (pack field ++ rest) := by simp [pack]
    rw [hpack, unpack, ih]
    rfl

/-- The fields of a token, one after the other, with the time as so many strokes. -/
def demoJwt : Jwt where
  sign t iat := String.ofList (pack t.sub.toList ++ (pack t.role.toList ++ (pack t.email.toList ++
    (pack t.jti.toList ++ (pack (List.replicate iat '|') ++ [])))))
  verify text now :=
    match unpack text.toList with
    | [sub, role, email, jti, iat] =>
      if now / 1000 < iat.length / 1000 + expiresInS then
        some ⟨String.ofList sub, String.ofList role, some (String.ofList email),
          some (String.ofList jti)⟩
      else none
    | _ => none

theorem demoJwt_lawful : demoJwt.Lawful where
  verify_sign t iat now := by
    simp only [demoJwt, String.toList_ofList, unpack_pack, unpack, List.length_replicate,
      String.ofList_toList, Token.payload]
  sign_ne t iat := by
    intro he
    have := congrArg (fun s => (unpack s.toList).length) he
    simp [demoJwt, unpack_pack, unpack] at this

/-- No users. -/
def demoAuthTables : AuthTables :=
  ⟨[], [], List.nodup_nil, List.nodup_nil, List.nodup_nil, fun _ h => absurd h List.not_mem_nil⟩

/-- The token of `maya`. -/
def demoToken : Token :=
  ⟨"maya", "CREATOR", "maya@kreav", "jti"⟩

/-- The header of a request with the token. -/
def demoHeader : Option String :=
  some ("Bearer " ++ demoJwt.sign demoToken 0)

/-- `maya` registers and makes a request. -/
def demoSession : List (Turn AuthChoice AuthStep AuthCall) :=
  [.call (.register ⟨"maya@kreav", "Maya", "CREATOR"⟩), .act (.run 0 {}),
    .act (.run 0 { uuid := "maya" }), .act (.run 0 { uuid := "jti" }),
    .call (.guarded demoHeader), .act (.run 1 {})]

theorem meets_call {s : Config auth AuthWorld Unit} {i : ℕ} {r : AuthRequest}
    {k : Except AuthError r.Ans → AuthMethod Unit} {c : AuthChoice}
    (hp : s.threads[i]? = some (.call r k)) (hr : Authentic jwt s.world r c) :
    Genuine jwt s (.act (.run i c)) := by
  rintro r' ⟨p, hp', hr'⟩
  obtain rfl := Option.some.inj (hp.symm.trans hp')
  obtain rfl := Option.some.inj hr'
  exact hr

theorem authentic_demoHeader {w : AuthWorld} (hw : w.history.issued = [⟨demoToken, 0⟩])
    (c : AuthChoice) : Authentic demoJwt w (.canActivate demoHeader) c := by
  intro text htext p hp
  rw [demoHeader, bearerToken_bearer (demoJwt_lawful.sign_ne _ _)] at htext
  obtain rfl := Option.some.inj htext
  exact ⟨⟨demoToken, 0⟩, by simp [hw], hp⟩

theorem run_demoSession : SessionProtocol.Run demoAuth demoJwt demoAuthTables 0 demoSession :=
  ⟨trivial, meets_call rfl trivial, meets_call rfl trivial,
    meets_call rfl ⟨by decide, List.not_mem_nil⟩, trivial,
    meets_call rfl (authentic_demoHeader rfl _), trivial⟩

/-- In every run of requests, interleaved in any way, each identity that the guard has attached
is that of a stored user, with the role and email of the row. The user was created by a
registration of the run, or one of the user's wallets proved itself by a challenge with its
signature. The token was signed by the service less than seven days before. -/
theorem sessions_authentic (sdk : WebAuth) (jwt : Jwt) (hjwt : jwt.Lawful) (tables : AuthTables)
    (now : ℕ) (ts : List (Turn AuthChoice AuthStep AuthCall))
    (h : SessionProtocol.Run sdk jwt tables now ts) :
    ∀ a ∈ (reached sdk jwt tables now ts).world.history.admitted,
      ∃ x ∈ (reached sdk jwt tables now ts).world.history.issued,
        x.token.payload.user = a.user ∧ a.time / 1000 < x.iat / 1000 + expiresInS ∧
        Entitled sdk (reached sdk jwt tables now ts).world x.token.sub x.token.role
          x.token.email := by
  obtain ⟨φ, -, hI⟩ := inv_reached hjwt h
  intro a ha
  obtain ⟨x, hx, hu, ht⟩ := hI.admitted a ha
  exact ⟨x, hx, hu, ht, hI.issued x hx⟩

/-- The request of `maya`. -/
theorem sessions_authentic_maya :
    ∃ x ∈ (reached demoAuth demoJwt demoAuthTables 0 demoSession).world.history.issued,
      x.token.payload.user = demoToken.payload.user ∧ 0 / 1000 < x.iat / 1000 + expiresInS ∧
        Entitled demoAuth (reached demoAuth demoJwt demoAuthTables 0 demoSession).world x.token.sub
          x.token.role x.token.email :=
  sessions_authentic demoAuth demoJwt demoJwt_lawful demoAuthTables 0 demoSession run_demoSession
    ⟨demoToken.payload.user, 0⟩ (List.mem_singleton.2 rfl)

/-- In every state that requests reach, interleaved in any way, a token that the service has
signed lets its holder in exactly until it is seven days old or the holder has logged out with
it, since the last restart. A logout with another token, of the same user or not, does not
matter. -/
theorem session_active_iff (sdk : WebAuth) (jwt : Jwt) (hjwt : jwt.Lawful) (tables : AuthTables)
    (now : ℕ) (ts : List (Turn AuthChoice AuthStep AuthCall))
    (h : SessionProtocol.Run sdk jwt tables now ts) :
    ∀ x ∈ (reached sdk jwt tables now ts).world.history.issued,
      canActivate jwt (some ("Bearer " ++ jwt.sign x.token x.iat))
          (reached sdk jwt tables now ts).world.now
          (reached sdk jwt tables now ts).world.revokedTokens = .ok x.token.payload.user ↔
        (reached sdk jwt tables now ts).world.now / 1000 < x.iat / 1000 + expiresInS ∧
          x.token.payload.user ∉ (reached sdk jwt tables now ts).world.history.loggedOut := by
  obtain ⟨φ, hs, hI⟩ := inv_reached hjwt h
  intro x hx
  rw [canActivate_sign hjwt, hI.revoked_iff (not_revoked hs) hx]

/-- The token of `maya` lets her in again. -/
theorem session_active_iff_maya :
    canActivate demoJwt (some ("Bearer " ++ demoJwt.sign demoToken 0))
      (reached demoAuth demoJwt demoAuthTables 0 demoSession).world.now
      (reached demoAuth demoJwt demoAuthTables 0 demoSession).world.revokedTokens =
        .ok demoToken.payload.user :=
  (session_active_iff demoAuth demoJwt demoJwt_lawful demoAuthTables 0 demoSession run_demoSession
    ⟨demoToken, 0⟩ (List.mem_singleton.2 rfl)).2 ⟨by decide, List.not_mem_nil⟩

end Kreav
