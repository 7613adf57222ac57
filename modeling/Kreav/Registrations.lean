import Kreav.SessionRuns

/-!
# Registrations

`register` reads whether the email is taken before it stores the user, and two registrations
may both read that it is not. `registered_once` : of all registrations with one email at most
one is answered, in every run of requests to the service, with any faults.
-/

open Async Prog

namespace Kreav

namespace AuthService

namespace SessionProtocol

variable {sdk : WebAuth} {jwt : Jwt} {w w' : AuthWorld} {φ : ℕ → Phase} {i : ℕ}

/-- What holds of all registrations. A user is created for one method, and this method answers
at most once. -/
structure Registrations (w : AuthWorld) (φ : ℕ → Phase) : Prop where
  rows : ∀ u ∈ w.history.created, ∃ row ∈ w.tables.users,
    row.id = u.id ∧ row.role = u.role ∧ row.email = u.email
  ids : (w.history.created.map (·.id)).Nodup
  created : w.history.registered ⊆ w.history.created
  nodup : w.history.registered.Nodup
  pending : ∀ i u, φ i = .created u → u ∈ w.history.created ∧ u ∉ w.history.registered
  apart : ∀ i j u, φ i = .created u → φ j = .created u → i = j

namespace Registrations

/-- A step that creates no user and answers no registration. -/
theorem of_extends (h : Registrations w φ) (he : Extends w w')
    (hc : w'.history.created = w.history.created)
    (hr : w'.history.registered = w.history.registered) : Registrations w' φ where
  rows u hu := by
    obtain ⟨row, hrow, hid, hrole, hemail⟩ := h.rows u (hc ▸ hu)
    obtain ⟨row', hrow', hid', hrole', hemail'⟩ := he.users row hrow
    exact ⟨row', hrow', hid'.trans hid, hrole'.trans hrole, hemail'.trans hemail⟩
  ids := hc ▸ h.ids
  created := by
    rw [hc, hr]
    exact h.created
  nodup := hr ▸ h.nodup
  pending := by
    rw [hc, hr]
    exact h.pending
  apart := h.apart

/-- A method goes on, with no user created. -/
theorem update (h : Registrations w φ) {ψ : Phase} (hnew : ∀ user, ψ ≠ .created user) :
    Registrations w (Function.update φ i ψ) where
  rows := h.rows
  ids := h.ids
  created := h.created
  nodup := h.nodup
  pending j u hj := h.pending j u
    (Phases.of_update (T := (· = Phase.created u)) (fun he => absurd he (hnew u)) j hj)
  apart j k u hj hk := h.apart j k u
    (Phases.of_update (T := (· = Phase.created u)) (fun he => absurd he (hnew u)) j hj)
    (Phases.of_update (T := (· = Phase.created u)) (fun he => absurd he (hnew u)) k hk)

/-- A user is stored. It is none of those before. -/
theorem store (h : Registrations w φ) {user : User} {tables : AuthTables}
    (hstore : w.tables.createUser user = .ok tables) :
    Registrations (w.store user tables) φ ∧ user ∉ w.history.created := by
  obtain ⟨husers, -, hid, -⟩ := createUser_ok hstore
  have hnew : user.id ∉ w.history.created.map (·.id) := by
    intro hmem
    obtain ⟨u, hu, he⟩ := List.mem_map.1 hmem
    obtain ⟨row, hrow, hrowid, -⟩ := h.rows u hu
    exact hid (List.mem_map.2 ⟨row, hrow, hrowid.trans he⟩)
  refine ⟨⟨fun u hu => ?_, nodup_map_concat h.ids hnew,
    fun u hu => List.mem_append_left _ (h.created hu), h.nodup,
    fun j u hj => ⟨List.mem_append_left _ (h.pending j u hj).1, (h.pending j u hj).2⟩, h.apart⟩,
    fun hmem => hnew (List.mem_map_of_mem hmem)⟩
  simp only [AuthWorld.store, husers]
  rcases List.mem_append.1 hu with hu | hu
  · obtain ⟨row, hrow, he⟩ := h.rows u hu
    exact ⟨row, List.mem_append_left _ hrow, he⟩
  · obtain rfl := List.mem_singleton.1 hu
    exact ⟨u, List.mem_append_right _ (List.mem_singleton_self _), rfl, rfl, rfl⟩

/-- The user is stored for method `i`. -/
theorem store_update (h : Registrations w φ) {user : User} {tables : AuthTables}
    (hstore : w.tables.createUser user = .ok tables) :
    Registrations (w.store user tables) (Function.update φ i (.created user)) := by
  obtain ⟨hw, hnew⟩ := h.store hstore
  have hother : ∀ j, Function.update φ i (.created user) j = .created user → j = i :=
    Phases.eq_of_update (T := (· = Phase.created user)) fun j _ hj =>
      hnew (h.pending j user hj).1
  have hkept : ∀ j u, Function.update φ i (.created user) j = .created u →
      u = user ∨ φ j = .created u := by
    intro j u hj
    by_cases hij : j = i
    · rw [hij, Function.update_self] at hj
      exact .inl (Phase.created.inj hj).symm
    · exact .inr (by rwa [Function.update_of_ne hij] at hj)
  refine ⟨hw.rows, hw.ids, hw.created, hw.nodup, fun j u hj => ?_, fun j k u hj hk => ?_⟩
  · rcases hkept j u hj with rfl | hj
    · exact ⟨List.mem_append_right _ (List.mem_singleton_self _),
        fun hreg => hnew (h.created hreg)⟩
    · exact hw.pending j u hj
  · by_cases hu : u = user
    · subst hu
      rw [hother j hj, hother k hk]
    · exact h.apart j k u ((hkept j u hj).resolve_left hu) ((hkept k u hk).resolve_left hu)

/-- A registration is answered. -/
theorem register (h : Registrations w φ) {user : User} (hi : φ i = .created user) :
    Registrations (w.log (.registered user)) (Function.update φ i .idle) := by
  obtain ⟨hmem, hnew⟩ := h.pending i user hi
  have hold : ∀ j u, Function.update φ i .idle j = .created u → φ j = .created u ∧ u ≠ user := by
    intro j u hj
    have hij : j ≠ i := fun he => by simp [he] at hj
    rw [Function.update_of_ne hij] at hj
    exact ⟨hj, fun he => hij (h.apart j i user (he ▸ hj) hi)⟩
  refine ⟨h.rows, h.ids, List.append_subset.2 ⟨h.created, by simpa [AuthWorld.log] using hmem⟩,
    ?_, fun j u hj => ?_, fun j k u hj hk => h.apart j k u (hold j u hj).1 (hold k u hk).1⟩
  · simp only [AuthWorld.log, ← List.concat_eq_append]
    exact h.nodup.concat hnew
  · obtain ⟨hj, hne⟩ := hold j u hj
    refine ⟨(h.pending j u hj).1, fun hreg => ?_⟩
    rcases List.mem_append.1 hreg with hreg | hreg
    · exact (h.pending j u hj).2 hreg
    · exact hne (List.mem_singleton.1 hreg)

theorem reply (h : Registrations w φ) {r : AuthRequest} {c : AuthChoice}
    {x : Except AuthError r.Ans} {φ' : Phase} (hreply : Reply (φ i) r x φ')
    (hout : Outcome sdk jwt c w r x w') : Registrations w' (Function.update φ i φ') := by
  have he := hout.extends
  generalize hi : φ i = ψ at hreply
  cases hreply with
  | failed =>
    refine Registrations.update ?_ (by simp)
    cases hout with
    | stored hstore => exact (h.store hstore).1
    | _ => exact h.of_extends he rfl rfl
  | created =>
    cases hout with
    | created hstore => exact h.store_update hstore
  | signed =>
    rw [← hi, Function.update_eq_self]
    cases hout
    exact h.of_extends he rfl rfl
  | _ =>
    cases hout
    exact (h.of_extends he rfl rfl).update (by simp)

theorem event (h : Registrations w φ) {v : AuthEvent} {φ' : Phase} (hv : Emits (φ i) v φ') :
    Registrations (w.log v) (Function.update φ i φ') := by
  generalize hi : φ i = ψ at hv
  cases hv with
  | registered => exact h.register hi
  | loggedOut => exact (h.of_extends (extends_log _ w) rfl rfl).update (by simp)

theorem env (h : Registrations w φ) (e : AuthStep) : Registrations (w.env e) φ := by
  have he := extends_env e w
  cases e with
  | timer nonce =>
    by_cases hdue : ∃ due ∈ w.usedChallenges.lookup nonce, due ≤ w.now
    · simp only [AuthWorld.env, if_pos hdue] at he ⊢
      exact h.of_extends he rfl rfl
    · simp only [AuthWorld.env, if_neg hdue]
      exact h
  | _ => exact h.of_extends he rfl rfl

/-- A crash ends all methods. -/
theorem crash (h : Registrations w φ) : Registrations w fun _ => .idle where
  rows := h.rows
  ids := h.ids
  created := h.created
  nodup := h.nodup
  pending i u hi := by cases hi
  apart i j u hi := by cases hi

theorem initial (tables : AuthTables) (now : ℕ) :
    Registrations ⟨tables, now, ∅, [], {}⟩ fun _ => .idle where
  rows u hu := absurd hu List.not_mem_nil
  ids := List.nodup_nil
  created := List.Subset.refl _
  nodup := List.nodup_nil
  pending i u hi := by cases hi
  apart i j u hi := by cases hi

theorem invariant : protocol.Invariant (authMachine sdk jwt)
    (fun (_ : Config auth AuthWorld Unit) _ => True) Registrations where
  final_rest := trivial
  event h hv := h.event hv
  ended h _ := h.update (by simp [protocol])
  outside h _ := h.env _
  reply h _ _ _ := ⟨trivial, fun φ' hφ' hk => .update hk (h.reply hφ' (outcome_exec _ _ _))⟩

/-- Registered users with one email are one. -/
theorem emails (h : Registrations w φ) : (w.history.registered.map (·.email)).Nodup := by
  refine h.nodup.map_on fun u hu v hv he => ?_
  obtain ⟨row, hrow, hid, -, hemail⟩ := h.rows u (h.created hu)
  obtain ⟨row', hrow', hid', -, hemail'⟩ := h.rows v (h.created hv)
  obtain rfl := List.inj_on_of_nodup_map w.tables.emails hrow hrow'
    (hemail.trans (he.trans hemail'.symm))
  exact List.inj_on_of_nodup_map h.ids (h.created hu) (h.created hv) (hid.symm.trans hid')

end Registrations

end SessionProtocol

end AuthService

open AuthService SessionProtocol

/-- In every run of requests, interleaved in any way and with any faults, restarts and ids, no
two registrations with one email are answered, and the users of those that are answered are
stored. -/
theorem registered_once (sdk : WebAuth) (jwt : Jwt) (tables : AuthTables) (now : ℕ)
    (ts : List (Turn AuthChoice AuthStep AuthCall)) :
    ((reached sdk jwt tables now ts).world.history.registered.map (·.email)).Nodup ∧
      ∀ u ∈ (reached sdk jwt tables now ts).world.history.registered,
        ∃ row ∈ (reached sdk jwt tables now ts).world.tables.users,
          row.id = u.id ∧ row.role = u.role ∧ row.email = u.email := by
  have hI : ∃ φ, (reached sdk jwt tables now ts).Tracks protocol φ ∧
      Registrations (reached sdk jwt tables now ts).world φ :=
    Registrations.invariant.turns (P := fun _ _ => True)
      (fun s φ i k hI _ _ =>
        ⟨.idle, (suspended_conforms k).1, (suspended_conforms k).2, hI.update (by simp)⟩)
      (fun s φ hI _ => hI.crash) ts ⟨fun hp => by simp at hp, fun _ => rfl⟩
      (Registrations.initial tables now) (Config.during_of_forall (fun _ _ => trivial) ts _)
  obtain ⟨φ, -, hI⟩ := hI
  exact ⟨hI.emails, fun u hu => hI.rows u (hI.created hu)⟩

end Kreav
