import Mathlib.Data.List.AList
import Mathlib.Data.List.Nodup

/-!
# Login challenges

`verifyChallenge` of `backend/src/auth/auth.service.ts`. It keeps a hash of the submitted text
for 300 seconds, and refuses a text whose hash it has. The SDK reads the transaction in the
text, and accepts it from 300 seconds before its window until 300 seconds after.

A text is not the transaction : base64 ignores white space. And 300 seconds are less than the
time in which a challenge is accepted. `challenge_once` : a challenge logs in at most once, as
long as one that has logged in comes again only as the same text and within 300 seconds.
-/

namespace Kreav

namespace AuthService

/-- Challenge validity window (seconds). -/
def challengeTimeoutS : ℕ :=
  300

/-- By how many seconds the SDK lets a challenge be early or late. -/
def gracePeriodS : ℕ :=
  300

/-- The transaction of a challenge, with the random value of its first operation. -/
structure ChallengeTx where
  clientAccountID : String
  value : String
  minTime : ℕ
  maxTime : ℕ
  deriving DecidableEq, Repr

/-- The challenge that `buildChallengeTx` builds at the time `now`, in milliseconds. -/
def buildChallenge (walletAddress value : String) (now : ℕ) : ChallengeTx :=
  ⟨walletAddress, value, now / 1000, now / 1000 + challengeTimeoutS⟩

/-- What the service calls : the transaction in a text, whether the signatures in the text are
those of the server and of the client, and a hash of texts. -/
structure WebAuth where
  decode : String → Option ChallengeTx
  signed : String → Bool
  sha256 : String → String

/-- `readChallengeTx` and `verifyChallengeTxSigners`. -/
def WebAuth.readChallengeTx (sdk : WebAuth) (signedXdr : String) (now : ℕ) : Option ChallengeTx :=
  match sdk.decode signedXdr with
  | none => none
  | some tx =>
    if sdk.signed signedXdr ∧ tx.minTime ≤ now / 1000 + gracePeriodS ∧
        now / 1000 ≤ tx.maxTime + gracePeriodS then some tx
    else none

/-- A row of `users`. -/
structure User where
  id : String
  email : String
  name : String
  role : String
  createdAt : ℕ
  deriving DecidableEq, Repr

/-- The payload of a session token. -/
structure Token where
  sub : String
  role : String
  email : String
  jti : String
  deriving DecidableEq, Repr

/-- The token of a session, with its user. -/
structure AuthTokenResponse where
  token : Token
  user : User
  deriving DecidableEq, Repr

/-- The claims of the token of a user. -/
def signToken (user : User) (jti : String) : Token :=
  ⟨user.id, user.role, user.email, jti⟩

/-- The nonces with the times of their timers. -/
abbrev UsedChallenges :=
  AList fun _ : String => ℕ

/-- Verify a signed challenge at the time `now`. `findWallet` is the user of a wallet. -/
def verifyChallenge (sdk : WebAuth) (signedXdr : String) (findWallet : String → Option User)
    (jti : String) (now : ℕ) (usedChallenges : UsedChallenges) :
    Except String AuthTokenResponse × UsedChallenges :=
  let nonce := sdk.sha256 signedXdr
  if nonce ∈ usedChallenges then (.error "Challenge already used", usedChallenges)
  else
    let usedChallenges := usedChallenges.insert nonce (now + challengeTimeoutS * 1000)
    match sdk.readChallengeTx signedXdr now with
    | none => (.error "Challenge verification failed", usedChallenges)
    | some challenge =>
      match findWallet challenge.clientAccountID with
      | none => (.error "Wallet is not connected to any Kreav account", usedChallenges)
      | some user => (.ok ⟨signToken user jti, user⟩, usedChallenges)

/-! ## Runs -/

/-- A login, with its text and time. -/
structure Login where
  signedXdr : String
  time : ℕ
  deriving DecidableEq, Repr

/-- The process, with its clock and the logins it has answered. -/
structure Process where
  now : ℕ
  usedChallenges : UsedChallenges
  logins : List Login

/-- The process after it has started. -/
def start (now : ℕ) : Process :=
  ⟨now, ∅, []⟩

/-- What may happen in the process. -/
inductive Event
  | wait (ms : ℕ)
  | verify (signedXdr : String) (findWallet : String → Option User) (jti : String)
  /-- The timer of a nonce fires, once it is due. -/
  | timer (nonce : String)

/-- The login of a call, if it is one. -/
def answered (signedXdr : String) (now : ℕ) : Except String AuthTokenResponse → List Login
  | .ok _ => [⟨signedXdr, now⟩]
  | .error _ => []

/-- One event. -/
def step (sdk : WebAuth) (s : Process) : Event → Process
  | .wait ms => { s with now := s.now + ms }
  | .verify signedXdr findWallet jti =>
    let (answer, usedChallenges) :=
      verifyChallenge sdk signedXdr findWallet jti s.now s.usedChallenges
    { s with usedChallenges, logins := s.logins ++ answered signedXdr s.now answer }
  | .timer nonce =>
    if ∃ due ∈ s.usedChallenges.lookup nonce, due ≤ s.now then
      { s with usedChallenges := s.usedChallenges.erase nonce }
    else s

/-- Events, one after the other. -/
def run (sdk : WebAuth) (es : List Event) (s : Process) : Process :=
  es.foldl (step sdk) s

/-- The SDK accepts the text, and its wallet is connected. -/
def Accepted (sdk : WebAuth) (signedXdr : String) (findWallet : String → Option User) (now : ℕ) :
    Prop :=
  ∃ tx ∈ sdk.readChallengeTx signedXdr now, (findWallet tx.clientAccountID).isSome

/-- A challenge that has logged in is submitted again only as the same text, less than 300
seconds after the login. -/
def Prompt (sdk : WebAuth) (s : Process) : Event → Prop
  | .verify signedXdr findWallet _ => Accepted sdk signedXdr findWallet s.now →
    ∀ l ∈ s.logins, sdk.decode l.signedXdr = sdk.decode signedXdr →
      l.signedXdr = signedXdr ∧ s.now < l.time + challengeTimeoutS * 1000
  | _ => True

/-- All events of a run are prompt. -/
def AllPrompt (sdk : WebAuth) : List Event → Process → Prop
  | [], _ => True
  | e :: es, s => Prompt sdk s e ∧ AllPrompt sdk es (step sdk s e)

/-- Each challenge has logged in at most once. -/
def AtMostOnce (sdk : WebAuth) (s : Process) : Prop :=
  ∀ tx : ChallengeTx, (s.logins.map fun l => sdk.decode l.signedXdr).count (some tx) ≤ 1

/-! ## The invariant -/

variable {sdk : WebAuth} {s : Process} {signedXdr jti nonce : String}
  {findWallet : String → Option User} {now : ℕ} {used : UsedChallenges}

/-- A call whose text is remembered leaves everything. -/
theorem verifyChallenge_used (h : sdk.sha256 signedXdr ∈ used) :
    verifyChallenge sdk signedXdr findWallet jti now used =
      (.error "Challenge already used", used) :=
  if_pos h

/-- Any other call remembers its text, and logs in when it is accepted. -/
theorem verifyChallenge_new (findWallet : String → Option User) (jti : String) (now : ℕ)
    (h : sdk.sha256 signedXdr ∉ used) :
    (verifyChallenge sdk signedXdr findWallet jti now used).2 =
        used.insert (sdk.sha256 signedXdr) (now + challengeTimeoutS * 1000) ∧
      (answered signedXdr now (verifyChallenge sdk signedXdr findWallet jti now used).1 = [] ∨
        answered signedXdr now (verifyChallenge sdk signedXdr findWallet jti now used).1 =
            [⟨signedXdr, now⟩] ∧ Accepted sdk signedXdr findWallet now) := by
  unfold verifyChallenge
  simp only [if_neg h]
  cases hread : sdk.readChallengeTx signedXdr now with
  | none => exact ⟨rfl, .inl rfl⟩
  | some tx =>
    cases hwallet : findWallet tx.clientAccountID with
    | none => simp [hwallet, answered]
    | some user =>
      simp only [hwallet]
      exact ⟨trivial, .inr ⟨rfl, tx, hread, by rw [hwallet]; rfl⟩⟩

/-- The texts of the last 300 seconds' logins are remembered, until their timers. -/
structure Inv (sdk : WebAuth) (s : Process) : Prop where
  nodup : (s.logins.map fun l => sdk.decode l.signedXdr).Nodup
  remembered : ∀ l ∈ s.logins, s.now < l.time + challengeTimeoutS * 1000 →
    s.usedChallenges.lookup (sdk.sha256 l.signedXdr) = some (l.time + challengeTimeoutS * 1000)

theorem inv_start (sdk : WebAuth) (now : ℕ) : Inv sdk (start now) :=
  ⟨List.nodup_nil, fun _ hl => absurd hl List.not_mem_nil⟩

theorem Inv.verify (h : Inv sdk s) (hp : Prompt sdk s (.verify signedXdr findWallet jti)) :
    Inv sdk (step sdk s (.verify signedXdr findWallet jti)) := by
  by_cases hused : sdk.sha256 signedXdr ∈ s.usedChallenges
  · have hstep : step sdk s (.verify signedXdr findWallet jti) = s := by
      simp [step, verifyChallenge_used hused, answered]
    rwa [hstep]
  obtain ⟨hinsert, hanswer⟩ := verifyChallenge_new findWallet jti s.now hused
  have hkept : ∀ l ∈ s.logins, s.now < l.time + challengeTimeoutS * 1000 →
      (s.usedChallenges.insert (sdk.sha256 signedXdr) (s.now + challengeTimeoutS * 1000)).lookup
        (sdk.sha256 l.signedXdr) = some (l.time + challengeTimeoutS * 1000) := by
    intro l hl ht
    have hlookup := h.remembered l hl ht
    have hne : sdk.sha256 l.signedXdr ≠ sdk.sha256 signedXdr := by
      intro he
      rw [he] at hlookup
      exact hused (AList.lookup_isSome.1 (by rw [hlookup]; rfl))
    rw [AList.lookup_insert_ne hne, hlookup]
  have hused' : (step sdk s (.verify signedXdr findWallet jti)).usedChallenges =
      s.usedChallenges.insert (sdk.sha256 signedXdr) (s.now + challengeTimeoutS * 1000) := hinsert
  rcases hanswer with hnone | ⟨hone, haccepted⟩
  · have hlogins : (step sdk s (.verify signedXdr findWallet jti)).logins = s.logins :=
      (congrArg (s.logins ++ ·) hnone).trans (List.append_nil _)
    refine ⟨hlogins ▸ h.nodup, fun l hl ht => ?_⟩
    rw [hlogins] at hl
    rw [hused']
    exact hkept l hl ht
  · have hlogins : (step sdk s (.verify signedXdr findWallet jti)).logins =
        s.logins ++ [⟨signedXdr, s.now⟩] := congrArg (s.logins ++ ·) hone
    have hnew : ∀ l ∈ s.logins, sdk.decode l.signedXdr ≠ sdk.decode signedXdr := by
      intro l hl he
      obtain ⟨htext, ht⟩ := hp haccepted l hl he
      have hlookup := h.remembered l hl ht
      rw [htext] at hlookup
      exact hused (AList.lookup_isSome.1 (by rw [hlookup]; rfl))
    refine ⟨?_, fun l hl ht => ?_⟩
    · rw [hlogins, List.map_append, List.map_singleton, List.nodup_append]
      refine ⟨h.nodup, List.nodup_singleton _, fun x hx y hy he => ?_⟩
      obtain ⟨l, hl, rfl⟩ := List.mem_map.1 hx
      obtain rfl := List.mem_singleton.1 hy
      exact hnew l hl he
    · rw [hlogins, List.mem_append, List.mem_singleton] at hl
      rw [hused']
      rcases hl with hl | rfl
      · exact hkept l hl ht
      · exact AList.lookup_insert _

/-- A timer that fires has been due. -/
theorem Inv.timer (h : Inv sdk s) (nonce : String) : Inv sdk (step sdk s (.timer nonce)) := by
  by_cases hdue : ∃ due ∈ s.usedChallenges.lookup nonce, due ≤ s.now
  · have hstep : step sdk s (.timer nonce) =
        { s with usedChallenges := s.usedChallenges.erase nonce } := if_pos hdue
    rw [hstep]
    refine ⟨h.nodup, fun l hl ht => ?_⟩
    have hlookup := h.remembered l hl ht
    have hne : sdk.sha256 l.signedXdr ≠ nonce := by
      rintro rfl
      obtain ⟨due, hmem, hle⟩ := hdue
      obtain rfl := Option.some.inj (hlookup.symm.trans hmem)
      exact absurd ht (not_lt.2 hle)
    exact (AList.lookup_erase_ne hne).trans hlookup
  · have hstep : step sdk s (.timer nonce) = s := if_neg hdue
    rwa [hstep]

theorem Inv.step {e : Event} (h : Inv sdk s) (hp : Prompt sdk s e) : Inv sdk (step sdk s e) := by
  cases e with
  | wait ms =>
    refine ⟨h.nodup, fun l hl ht => h.remembered l hl ?_⟩
    exact lt_of_le_of_lt (Nat.le_add_right s.now ms) ht
  | verify signedXdr findWallet jti => exact h.verify hp
  | timer nonce => exact h.timer nonce

theorem inv_run : ∀ {es : List Event} {s : Process}, Inv sdk s → AllPrompt sdk es s →
    Inv sdk (run sdk es s)
  | [], _, h, _ => h
  | e :: es, s, h, ⟨hp, hps⟩ => by
    have hrest : Inv sdk (run sdk es (AuthService.step sdk s e)) := inv_run (h.step hp) hps
    exact hrest

end AuthService

open AuthService

/-- In every run of calls, with any texts, wallets and times, in which a challenge that has
logged in comes again only as the same text within 300 seconds, each challenge logs in at most
once. -/
theorem challenge_once (sdk : WebAuth) (now : ℕ) (es : List Event)
    (h : AllPrompt sdk es (AuthService.start now)) :
    AtMostOnce sdk (AuthService.run sdk es (AuthService.start now)) :=
  fun _ => List.nodup_iff_count_le_one.1 (inv_run (inv_start sdk now) h).nodup _

/-- A challenge for the wallet `A`. -/
def demoChallenge : ChallengeTx :=
  buildChallenge "A" "random" 0

/-- The signed text of the challenge, in which blanks do not matter. -/
def demoAuth : WebAuth where
  decode text := if text.toList.filter (· ≠ ' ') = ['X', 'D', 'R'] then some demoChallenge else none
  signed _ := true
  sha256 := id

/-- The wallet is that of `alice`. -/
def demoVerify (signedXdr : String) : Event :=
  .verify signedXdr (fun _ => some ⟨"alice", "alice@kreav", "Alice", "CREATOR", 0⟩) "jti"

/-- A second submission, a second later, is refused. -/
theorem challenge_once_refused : AtMostOnce demoAuth (AuthService.run demoAuth
    [demoVerify "XDR", .wait 1000, demoVerify "XDR"] (AuthService.start 0)) :=
  challenge_once demoAuth 0 _ ⟨fun _ _ hl => absurd hl List.not_mem_nil, trivial,
    fun _ l hl _ => List.mem_singleton.1 hl ▸ ⟨rfl, by decide⟩, trivial⟩

/-- The same text logs in again once its timer has fired, and so does the text with a blank. -/
theorem challenge_replayed :
    ¬ AtMostOnce demoAuth (AuthService.run demoAuth
      [demoVerify "XDR", .wait 300000, .timer "XDR", demoVerify "XDR"] (AuthService.start 0)) ∧
    ¬ AtMostOnce demoAuth (AuthService.run demoAuth
      [demoVerify "XDR", demoVerify "X DR"] (AuthService.start 0)) :=
  ⟨fun h => absurd (h demoChallenge) (by decide), fun h => absurd (h demoChallenge) (by decide)⟩

end Kreav
