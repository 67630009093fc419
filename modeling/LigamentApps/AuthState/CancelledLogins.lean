import LigamentApps.AuthState.LoginTasks

/-!
# Cancelled logins

Every new generation overtakes the attempts that wait. An attempt that is overtaken must change nothing any
more, and when nothing waits, the session in memory and the token that a restart restores are of attempts that
came to their end as the latest ones. The attempts keep to that as long as what they wait for comes in
time. -/

namespace LigamentApps.AuthState

open List Option Bool

variable {p : PendingTask} {task : AuthTask} {a : LoginAction}

/-- An attempt has committed, and has still to see that it is the latest. -/
def LoginPc.isCommitted : LoginPc → Bool
  | .writeDeviceId _ | .localDetect _ | .refresh _ => true
  | _ => false

/-- A logout has still to reset the session. -/
def LogoutPc.isBeforeClear : LogoutPc → Bool
  | .marker | .server | .localDetect => true
  | _ => false

/-- A task that will see to the session of an attempt: the attempt itself, where it is the committed one, or a
logout. -/
def AuthTask.settles (committed attempt : ℕ) : AuthTask → Prop
  | .login own pc => pc.isCommitted = true ∧ own.generation = attempt ∧ committed = attempt
  | .logout _ pc => pc.isBeforeClear = true
  | _ => False

/-- The task that a step takes. -/
def LoginAction.index : LoginAction → Option ℕ
  | .store index | .resume index _ => some index
  | _ => none

namespace Logins

/-- The tombstone is set, or a task that waits will write it. -/
def tombstoneComes (s : Logins) : Bool := s.store.loggedOut || s.tasks.any (·.writesTombstone)

/-! ## What is asked for -/

/-- An attempt leaves no trace: neither its address nor its token is taken over, and its response changes no
client. -/
structure NoTrace (s : Logins) (attempt : LoginAttempt) (pc : LoginPc) (t : Logins) : Prop where
  serverUrl : t.store.serverUrl = s.store.serverUrl
  bearers : t.bearers = s.bearers ∨ pc ≠ .request ∧ t.bearers = s.bearers.set attempt.client none
  token : t.token = s.token ∨ t.token = none
  currentUser : t.currentUser = s.currentUser ∨ t.currentUser = none

/-- When nothing waits, a restart restores no token but that of the latest attempt, and the session is of an
attempt that came to its end as the latest one. -/
structure AtRest (s : Logins) : Prop where
  restored : ∀ token, s.store.restored = some token → token.attempt = s.loginGeneration
  token : ∀ token, s.token = some token → token.attempt ∈ s.finished
  currentUser : ∀ attempt, s.currentUser = some attempt → attempt ∈ s.finished

/-- No step of an overtaken attempt leaves a trace, and none is left when nothing waits. -/
structure Traceless (s : Logins) (a : LoginAction) : Prop where
  overtaken : ∀ index p attempt pc, a.index = some index → s.tasks[index]? = some p → p.task = .login attempt pc →
    attempt.generation ≠ s.loginGeneration → ∀ t, s.step a = some t → s.NoTrace attempt pc t
  atRest : s.tasks = [] → s.AtRest

/-! ## What comes in time -/

/-- The operation of a task comes in time: an address is that of the latest attempt or the one that is saved,
and the tombstone is removed for the latest attempt. -/
def storesInTime (s : Logins) : AuthTask → Bool
  | .login attempt (.writeToken _ _) => s.tokenInTime attempt
  | .login attempt (.writeServerUrl _ _) =>
    attempt.generation = s.loginGeneration || s.store.serverUrl = some attempt.base
  | .login attempt (.removeMarker _ _) => attempt.generation = s.loginGeneration
  | _ => true

/-- What a task goes on with comes in time: the response to a `login` is for the latest attempt, fails, or
brings the token that the client has; and a committed attempt that is overtaken finds its token and its
client. -/
def resumesInTime (s : Logins) (reply : AuthReply) : AuthTask → Bool
  | .login attempt .request =>
    attempt.generation = s.loginGeneration || attempt.claim || reply.failed ||
      s.bearers.set attempt.client (reply.response.token.map (⟨·, attempt.generation⟩)) = s.bearers
  | .login attempt (.removeMarker token _) | .login attempt (.writeDeviceId token) | .login attempt (.localDetect token)
  | .login attempt (.refresh token) =>
    s.isCurrent attempt || s.committedLoginGeneration ≠ attempt.generation || s.token.isNone || s.isOwn attempt token
  | _ => true

/-- A step comes in time. A login without an address or a client begins a generation, but writes no
tombstone. -/
def inTime (s : Logins) : LoginAction → Bool
  | .login _ => s.serverUrl.any (· ≠ "") && s.api.isSome || s.tombstoneComes || s.store.token.isNone
  | .store index => s.tasks[index]?.all fun p => p.stored || s.storesInTime p.task
  | .resume index reply => s.tasks[index]?.all fun p => !p.mayResume reply || s.resumesInTime reply p.task
  | _ => true

/-! ## Overtaken attempts -/

variable {s t : Logins} {attempt : LoginAttempt} {pc : LoginPc} {reply : AuthReply} {held : AuthTask}

theorem isCurrent_of_overtaken (h : attempt.generation ≠ s.loginGeneration) : s.isCurrent attempt = false := by
  simp [isCurrent, h]

theorem noTrace_same (hstore : t.store.serverUrl = s.store.serverUrl) (hbearers : t.bearers = s.bearers)
    (htoken : t.token = s.token) (huser : t.currentUser = s.currentUser) : s.NoTrace attempt pc t :=
  ⟨hstore, .inl hbearers, .inl htoken, .inl huser⟩

theorem noTrace_rollback (hpc : pc ≠ .request) (token : BearerToken) :
    s.NoTrace attempt pc (s.rollback attempt token) := by
  unfold rollback
  split_ifs
  · exact noTrace_same rfl rfl rfl rfl
  · exact ⟨rfl, .inr ⟨hpc, rfl⟩, .inr rfl, .inr rfl⟩
  · exact noTrace_same rfl rfl rfl rfl

theorem noTrace_resumeLogin (hovertaken : attempt.generation ≠ s.loginGeneration)
    (htime : s.resumesInTime reply (.login attempt pc) = true) :
      s.NoTrace attempt pc (s.resumeLogin attempt reply pc) := by
  have hcurrent : s.isCurrent attempt = false := isCurrent_of_overtaken hovertaken
  cases pc with
  | request =>
    simp only [resumeLogin]
    split_ifs with hfailed
    · exact noTrace_same rfl rfl rfl rfl
    · have hbearers : (s.takeResponse attempt reply.response).bearers = s.bearers := by
        unfold takeResponse
        split_ifs with hclaim
        · rfl
        · simpa [resumesInTime, hovertaken, hclaim, hfailed] using htime
      have hsame : (s.takeResponse attempt reply.response).store = s.store ∧
          (s.takeResponse attempt reply.response).token = s.token ∧
          (s.takeResponse attempt reply.response).currentUser = s.currentUser := by
        unfold takeResponse
        split_ifs <;> exact ⟨rfl, rfl, rfl⟩
      exact noTrace_same (congrArg _ hsame.1) hbearers hsame.2.1 hsame.2.2
  | posture => exact noTrace_same rfl rfl rfl rfl
  | writeToken =>
    simp only [resumeLogin]
    split_ifs <;> exact noTrace_same rfl rfl rfl rfl
  | removeMarker token | writeDeviceId token | localDetect token | refresh token =>
    simp only [resumeLogin, hcurrent, false_eq_true, if_false]
    refine noTrace_rollback ?_ token
    simp
  | _ =>
    simp only [resumeLogin, hcurrent, false_eq_true, if_false]
    exact noTrace_same rfl rfl rfl rfl

theorem noTrace_stores {op : StoreOp} (hop : (AuthTask.login attempt pc).op = some op)
    (hsaved : ∀ token hasDeviceId, pc = .writeServerUrl token hasDeviceId → s.store.serverUrl = some attempt.base) :
    s.NoTrace attempt pc (s.stores (.login attempt pc) op) := by
  cases pc with
  | marker | writeToken | removeMarker =>
    cases hop
    exact noTrace_same rfl rfl rfl rfl
  | writeServerUrl token hasDeviceId =>
    cases hop
    exact noTrace_same (hsaved token hasDeviceId rfl).symm rfl rfl rfl
  | _ => exact nomatch hop

/-! ## Sessions that are seen to -/

/-- The session in memory is of an attempt that came to its end as the latest one, or a task that waits sees
to it, where one may be taken out. -/
structure SessionKept (s : Logins) (held : AuthTask) : Prop where
  token : ∀ token, s.token = some token → token.attempt ∈ s.finished ∨
    held.settles s.committedLoginGeneration token.attempt ∨
      ∃ p ∈ s.tasks, p.task.settles s.committedLoginGeneration token.attempt
  currentUser : ∀ attempt, s.currentUser = some attempt → attempt ∈ s.finished ∨
    ∃ token, s.token = some token ∧ token.attempt = attempt

theorem sessionKept_same (h : s.SessionKept held) (htoken : t.token = s.token)
    (huser : t.currentUser = s.currentUser)
    (hcommitted : t.committedLoginGeneration = s.committedLoginGeneration) (htasks : s.tasks ⊆ t.tasks)
    (hfinished : s.finished ⊆ t.finished) : t.SessionKept held := by
  constructor
  · intro token heq
    rw [htoken] at heq
    rw [hcommitted]
    rcases h.token token heq with hdone | hheld | ⟨p, hp, hsettles⟩
    · exact .inl (hfinished hdone)
    · exact .inr (.inl hheld)
    · exact .inr (.inr ⟨p, htasks hp, hsettles⟩)
  · intro attempt heq
    rw [huser] at heq
    rw [htoken]
    exact (h.currentUser attempt heq).imp_left fun hdone => hfinished hdone

theorem sessionKept_stores (h : s.SessionKept held) (op : StoreOp) : (s.stores held op).SessionKept .marker := by
  refine ⟨fun token heq => ?_, h.currentUser⟩
  rcases h.token token heq with hdone | hheld | ⟨p, hp, hsettles⟩
  · exact .inl hdone
  · exact .inr (.inr ⟨⟨held, true⟩, mem_append_right _ (mem_singleton_self _), hheld⟩)
  · exact .inr (.inr ⟨p, mem_append_left _ hp, hsettles⟩)

theorem sessionKept_drop (h : s.SessionKept held)
    (hnot : ∀ attempt, ¬held.settles s.committedLoginGeneration attempt) : s.SessionKept .marker := by
  refine ⟨fun token heq => ?_, h.currentUser⟩
  rcases h.token token heq with hdone | hheld | hwaits
  · exact .inl hdone
  · exact absurd hheld (hnot token.attempt)
  · exact .inr (.inr hwaits)

theorem sessionKept_goesOn (h : s.SessionKept held)
    (hnext : ∀ attempt, held.settles s.committedLoginGeneration attempt →
      task.settles s.committedLoginGeneration attempt) :
    (s.goesOn task).SessionKept .marker := by
  refine ⟨fun token heq => ?_, h.currentUser⟩
  rcases h.token token heq with hdone | hheld | ⟨p, hp, hsettles⟩
  · exact .inl hdone
  · exact .inr (.inr ⟨⟨task, false⟩, mem_append_right _ (mem_singleton_self _), hnext _ hheld⟩)
  · exact .inr (.inr ⟨p, mem_append_left _ hp, hsettles⟩)

theorem sessionKept_none (htoken : s.token = none) (huser : s.currentUser = none) : s.SessionKept held := by
  constructor
  · intro token heq
    exact nomatch htoken.symm.trans heq
  · intro attempt heq
    exact nomatch huser.symm.trans heq

theorem sessionKept_logout (h : s.SessionKept held) : s.logout.SessionKept .marker := by
  refine ⟨fun token _ => ?_, h.currentUser⟩
  exact .inr (.inr ⟨⟨.logout (s.loginGeneration + 1) .marker, false⟩,
    mem_append_right _ (mem_singleton_self _), rfl⟩)

theorem sessionKept_commit {token : BearerToken} (hown : token.attempt = attempt.generation)
    (hasDeviceId : Bool) : (s.commit attempt token hasDeviceId).SessionKept .marker := by
  constructor
  · intro token' heq
    cases heq
    refine .inr (.inr ⟨_, mem_append_right _ (mem_singleton_self _), ?_, hown.symm, hown.symm⟩)
    cases hasDeviceId <;> rfl
  · intro user heq
    cases heq
    exact .inr ⟨token, rfl, hown⟩

theorem sessionKept_rollback {token : BearerToken} (h : s.SessionKept held)
    (hheld : ∀ attempt', held.settles s.committedLoginGeneration attempt' →
      s.committedLoginGeneration = attempt.generation)
    (htime : s.committedLoginGeneration = attempt.generation → s.token = none ∨ s.isOwn attempt token = true) :
    (s.rollback attempt token).SessionKept .marker := by
  unfold rollback
  split_ifs with hcommitted hown
  · exact sessionKept_drop h fun attempt' hsettles => hcommitted (hheld attempt' hsettles)
  · exact sessionKept_none rfl rfl
  · have hnone : s.token = none := (htime (not_not.mp hcommitted)).resolve_right hown
    constructor
    · intro token' heq
      exact nomatch hnone.symm.trans heq
    · exact h.currentUser

theorem sessionKept_takeResponse (h : s.SessionKept held) (attempt : LoginAttempt)
    (response : LoginResponse) : (s.takeResponse attempt response).SessionKept held := by
  unfold takeResponse
  split_ifs
  · exact h
  · exact ⟨h.token, h.currentUser⟩

theorem sessionKept_finalizeLogin (h : s.SessionKept .marker) (attempt : LoginAttempt)
    (response : LoginResponse) : (s.finalizeLogin attempt response).SessionKept .marker := by
  unfold finalizeLogin
  split
  · split_ifs
    · exact h
    · exact sessionKept_goesOn h nofun
  · exact h

theorem sessionKept_resumeLogin (h : s.SessionKept (.login attempt pc))
    (hown : ∀ token, pc.token = some token → token.attempt = attempt.generation)
    (htime : s.resumesInTime reply (.login attempt pc) = true) :
      (s.resumeLogin attempt reply pc).SessionKept .marker := by
  have hdrop : pc.isCommitted = false → s.SessionKept .marker := fun hnot =>
    sessionKept_drop h fun _ hsettles => Bool.false_ne_true (hnot.symm.trans hsettles.1)
  have hheld : ∀ attempt', (AuthTask.login attempt pc).settles s.committedLoginGeneration attempt' →
      s.committedLoginGeneration = attempt.generation := fun _ hsettles => hsettles.2.2.trans hsettles.2.1.symm
  -- What comes in time for a rollback.
  have hback : ∀ token, s.isCurrent attempt = false → (s.isCurrent attempt ||
      s.committedLoginGeneration ≠ attempt.generation || s.token.isNone || s.isOwn attempt token) = true →
      (s.rollback attempt token).SessionKept .marker := by
    intro token hcurrent hintime
    refine sessionKept_rollback h hheld fun hcommitted => ?_
    simpa [hcurrent, hcommitted] using hintime
  cases pc with
  | marker | writeServerUrl =>
    simp only [resumeLogin]
    split_ifs
    · exact sessionKept_goesOn h fun _ hnone => by cases hnone.1
    · exact hdrop rfl
  | posture => exact sessionKept_goesOn h fun _ hnone => by cases hnone.1
  | request =>
    simp only [resumeLogin]
    split_ifs
    · exact hdrop rfl
    · exact sessionKept_goesOn (sessionKept_takeResponse h attempt reply.response) fun _ hnone => by cases hnone.1
  | answered response =>
    simp only [resumeLogin]
    split_ifs
    · exact sessionKept_finalizeLogin (hdrop rfl) attempt response
    · exact hdrop rfl
  | writeToken =>
    simp only [resumeLogin]
    split_ifs
    · exact hdrop rfl
    · exact sessionKept_goesOn h fun _ hnone => by cases hnone.1
  | removeMarker token hasDeviceId =>
    simp only [resumeLogin]
    split_ifs with hcurrent
    · exact sessionKept_commit (hown token rfl) hasDeviceId
    · exact hback token (by simpa using hcurrent) htime
  | writeDeviceId token | localDetect token =>
    simp only [resumeLogin]
    split_ifs with hcurrent
    · exact sessionKept_goesOn h fun _ hsettles => hsettles
    · exact hback token (by simpa using hcurrent) htime
  | refresh token =>
    simp only [resumeLogin]
    split_ifs with hcurrent
    · -- The attempt has come to its end as the latest one.
      constructor
      · intro token' heq
        rcases h.token token' heq with hdone | hsettles | hwaits
        · exact .inl (mem_cons_of_mem _ hdone)
        · exact .inl (mem_cons.mpr (.inl hsettles.2.1.symm))
        · exact .inr (.inr hwaits)
      · intro user heq
        exact (h.currentUser user heq).imp_left (mem_cons_of_mem _)
    · exact hback token (by simpa using hcurrent) htime

theorem sessionKept_resumeLogout {began : ℕ} {pc : LogoutPc} (h : s.SessionKept (.logout began pc)) :
    (s.resumeLogout began pc).SessionKept .marker := by
  cases pc with
  | marker =>
    have hcalled : s.callLogout.SessionKept (.logout began .marker) := by
      unfold callLogout
      split
      · exact sessionKept_same h rfl rfl rfl (subset_append_left _ _) (List.Subset.refl _)
      · exact h
    exact sessionKept_goesOn hcalled fun _ _ => rfl
  | server => exact sessionKept_goesOn h fun _ _ => rfl
  | localDetect => exact sessionKept_none rfl rfl
  | preferences => exact sessionKept_goesOn h nofun
  | secureStorage => exact sessionKept_drop h nofun

theorem sessionKept_resume (h : s.SessionKept p.task)
    (hok : TaskOk s.loginGeneration s.finished s.store.token p)
    (htime : s.resumesInTime reply p.task = true) : (s.resume reply p.task).SessionKept .marker := by
  obtain ⟨task, done⟩ := p
  cases task with
  | login attempt pc => exact sessionKept_resumeLogin h (hok.own attempt pc rfl) htime
  | logout => exact sessionKept_resumeLogout h
  | marker => exact h
  | serverUrlPreferences => exact sessionKept_goesOn h nofun
  | serverUrlWrite | clientLogout =>
    have hdrop := sessionKept_drop h nofun
    exact ⟨hdrop.token, hdrop.currentUser⟩
  | restoreProfile =>
    have hdrop := sessionKept_drop h nofun
    simp only [resume]
    split_ifs
    · refine ⟨hdrop.token, fun user heq => ?_⟩
      cases heq
      exact .inl (hok.restores _ rfl)
    · exact sessionKept_logout hdrop
    · exact hdrop

/-- The storage is as before, what waits goes on waiting, and a new generation has its tombstone written. -/
structure Extends (s t : Logins) : Prop where
  store : t.store = s.store
  tasks : s.tasks ⊆ t.tasks
  generation : t.loginGeneration = s.loginGeneration ∨ ∃ p ∈ t.tasks, p.writesTombstone = true

theorem Frame.extends (h : s.Frame t) : s.Extends t := ⟨h.store, h.tasks, .inl h.generation⟩

theorem extends_logout (s : Logins) : s.Extends s.logout :=
  ⟨rfl, subset_append_left _ _, .inr ⟨_, mem_append_right _ (mem_singleton_self _), rfl⟩⟩

theorem extends_resume (s : Logins) (reply : AuthReply) (task : AuthTask) : s.Extends (s.resume reply task) := by
  rcases s.frame_resume reply task with hframe | hlogout
  · exact hframe.extends
  · rw [hlogout]
    exact extends_logout s

/-! ## The tombstone -/

/-- The tombstone is set or comes, or the token stored is of the latest attempt. -/
def TombstoneKept (s : Logins) : Prop :=
  s.tombstoneComes = true ∨ ∀ token, s.store.token = some token → token.attempt = s.loginGeneration

theorem tombstoneComes_iff : s.tombstoneComes = true ↔
    s.store.loggedOut = true ∨ ∃ p ∈ s.tasks, p.writesTombstone = true := by
  unfold tombstoneComes
  rw [or_eq_true, List.any_eq_true]

theorem tombstoneComes_without {index : ℕ} (hp : s.tasks[index]? = some p)
    (hwrites : p.writesTombstone = false) (h : s.tombstoneComes = true) :
    (s.without index).tombstoneComes = true := by
  rw [tombstoneComes_iff] at h ⊢
  refine h.imp_right fun ⟨q, hq, hcomes⟩ => ⟨q, ?_, hcomes⟩
  rcases (mem_iff_of_getElem? hp q).mp hq with rfl | hrest
  · simp [hwrites] at hcomes
  · exact hrest

theorem tombstoneKept_extends (h : s.TombstoneKept) (hext : s.Extends t) : t.TombstoneKept := by
  rcases h with hcomes | hlatest
  · left
    rw [tombstoneComes_iff] at hcomes ⊢
    rw [hext.store]
    exact hcomes.imp_right fun ⟨q, hq, hwrites⟩ => ⟨q, hext.tasks hq, hwrites⟩
  · rcases hext.generation with hsame | hcomes
    · right
      rw [hext.store, hsame]
      exact hlatest
    · exact .inl (tombstoneComes_iff.mpr (.inr hcomes))

theorem tombstoneKept_writes (htask : ∃ p ∈ s.tasks, p.writesTombstone = true) : s.TombstoneKept :=
  .inl (tombstoneComes_iff.mpr (.inr htask))

theorem tombstoneKept_login {claim : Bool} (htime : s.inTime (.login claim) = true) :
    (s.login claim).TombstoneKept := by
  -- Without an address or a client no tombstone is written.
  have hrefused : s.tombstoneComes = true ∨ s.store.token = none →
      TombstoneKept { s with loginGeneration := s.loginGeneration + 1 } := by
    rintro (hcomes | hnone)
    · exact .inl hcomes
    · exact .inr fun token heq => nomatch hnone.symm.trans heq
  unfold login
  split
  · rename_i base client hurl hapi
    split_ifs with hempty
    · exact hrefused (by simpa [inTime, hurl, hempty] using htime)
    · exact tombstoneKept_writes ⟨_, mem_append_right _ (mem_singleton_self _), rfl⟩
  · rename_i hnone
    refine hrefused ?_
    simp only [inTime, or_eq_true, and_eq_true, isNone_iff_eq_none] at htime
    refine htime.imp_left fun hcomes => hcomes.resolve_left fun hboth => ?_
    obtain ⟨base, hurl, -⟩ := (Option.any_eq_true ..).mp hboth.1
    obtain ⟨client, hapi⟩ := isSome_iff_exists.mp hboth.2
    exact hnone base client hurl hapi

theorem tombstoneKept_stores {op : StoreOp} {index : ℕ} (hp : s.tasks[index]? = some ⟨task, false⟩)
    (hop : task.op = some op) (h : s.TombstoneKept)
    (hok : TaskOk s.loginGeneration s.finished s.store.token ⟨task, false⟩)
    (htime : s.storesInTime task = true) : ((s.without index).stores task op).TombstoneKept := by
  -- An operation that changes neither the tombstone nor the token.
  have hother : op ≠ .writeMarker → (op.apply s.store).loggedOut = s.store.loggedOut →
      (op.apply s.store).token = s.store.token → ((s.without index).stores task op).TombstoneKept := by
    intro hnot hlogged htoken
    have hwrites : PendingTask.writesTombstone ⟨task, false⟩ = false := by
      simp [PendingTask.writesTombstone, hop, hnot]
    rcases h with hcomes | hlatest
    · left
      have hrest := tombstoneComes_iff.mp (tombstoneComes_without hp hwrites hcomes)
      refine tombstoneComes_iff.mpr (hrest.imp hlogged.trans ?_)
      rintro ⟨q, hq, hcomes'⟩
      exact ⟨q, mem_append_left _ hq, hcomes'⟩
    · exact .inr fun token heq => hlatest token (htoken ▸ heq)
  cases task with
  | login attempt pc =>
    cases pc with
    | marker =>
      cases hop
      exact .inl rfl
    | writeToken token =>
      cases hop
      have hown : token.attempt = attempt.generation := hok.own attempt _ rfl token rfl
      simp only [storesInTime, tokenInTime, or_eq_true, and_eq_true, decide_eq_true_eq] at htime
      rcases htime with hlatest | ⟨hlogged, -⟩
      · right
        intro token' heq
        cases heq
        exact hown.trans hlatest
      · exact .inl (tombstoneComes_iff.mpr (.inl hlogged))
    | writeServerUrl =>
      cases hop
      exact hother (by simp) rfl rfl
    | removeMarker =>
      cases hop
      exact .inr fun token' heq => hok.holds htime token' heq
    | _ => cases hop
  | logout _ pc =>
    cases pc with
    | marker =>
      cases hop
      exact .inl rfl
    | secureStorage =>
      cases hop
      exact .inr fun _ heq => by cases heq
    | _ => cases hop
  | marker =>
    cases hop
    exact .inl rfl
  | serverUrlWrite =>
    cases hop
    exact hother (by simp) rfl rfl
  | _ => cases hop

/-- What holds of every state of a run that comes in time. -/
structure Kept (s : Logins) : Prop where
  sound : s.Sound
  tombstone : s.TombstoneKept
  session : s.SessionKept .marker

theorem sessionKept_without (h : s.SessionKept .marker) {index : ℕ} (hp : s.tasks[index]? = some p) :
    (s.without index).SessionKept p.task := by
  refine ⟨fun token heq => ?_, h.currentUser⟩
  rcases h.token token heq with hdone | hnone | ⟨q, hq, hsettles⟩
  · exact .inl hdone
  · exact False.elim hnone
  · rcases (mem_iff_of_getElem? hp q).mp hq with rfl | hrest
    · exact .inr (.inl hsettles)
    · exact .inr (.inr ⟨q, hrest, hsettles⟩)

theorem tombstoneKept_without (h : s.TombstoneKept) {index : ℕ} (hp : s.tasks[index]? = some p)
    (hwrites : p.writesTombstone = false) : (s.without index).TombstoneKept :=
  h.imp_left (tombstoneComes_without hp hwrites)

theorem storesInTime_of {index : ℕ} (htime : s.inTime (.store index) = true)
    (hp : s.tasks[index]? = some ⟨task, false⟩) : s.storesInTime task = true := by
  simpa [inTime, hp] using htime

theorem resumesInTime_of {index : ℕ} (htime : s.inTime (.resume index reply) = true)
    (hp : s.tasks[index]? = some p) (hmay : p.mayResume reply = true) :
    (s.without index).resumesInTime reply p.task = true := by
  have hnow : s.resumesInTime reply p.task = true := by simpa [inTime, hp, hmay] using htime
  exact hnow

/-- Every step in time keeps the session and the tombstone. -/
theorem kept_step (h : s.Kept) (htime : s.inTime a = true) (hs : s.step a = some t) : t.Kept := by
  have hstores : s.StoresInTime a := by
    rintro index attempt token hasDeviceId rfl hp
    exact storesInTime_of htime hp
  refine ⟨sound_step h.sound hstores hs, ?_, ?_⟩
  · cases a with
    | login =>
      cases hs
      exact tombstoneKept_login htime
    | cancelLoginAttempts =>
      cases hs
      exact tombstoneKept_writes ⟨_, mem_append_right _ (mem_singleton_self _), rfl⟩
    | setServerUrl =>
      cases hs
      exact tombstoneKept_writes
        ⟨_, mem_append_left _ (mem_append_right _ (mem_singleton_self _)), rfl⟩
    | logout =>
      cases hs
      exact tombstoneKept_extends h.tombstone s.extends_logout
    | store =>
      obtain ⟨task, op, hp, hop, rfl⟩ := store_cases hs
      have hok := h.sound _ (mem_of_getElem? hp)
      exact tombstoneKept_stores hp hop h.tombstone hok (storesInTime_of htime hp)
    | resume _ reply =>
      obtain ⟨p, hp, hmay, rfl⟩ := resume_cases hs
      have hrest := tombstoneKept_without h.tombstone hp (not_writesTombstone_of_mayResume hmay)
      exact tombstoneKept_extends hrest (extends_resume _ reply p.task)
  · cases a with
    | login =>
      cases hs
      have hbegun : SessionKept { s with loginGeneration := s.loginGeneration + 1 } .marker :=
        ⟨h.session.token, h.session.currentUser⟩
      unfold login
      split
      · split_ifs
        · exact hbegun
        · exact sessionKept_goesOn hbegun nofun
      · exact hbegun
    | cancelLoginAttempts =>
      cases hs
      exact sessionKept_same h.session rfl rfl rfl (subset_append_left _ _) (List.Subset.refl _)
    | setServerUrl =>
      cases hs
      refine sessionKept_same h.session rfl rfl rfl ?_ (List.Subset.refl _)
      exact List.Subset.trans (subset_append_left _ _) (subset_append_left _ _)
    | logout =>
      cases hs
      exact sessionKept_logout h.session
    | store =>
      obtain ⟨task, op, hp, hop, rfl⟩ := store_cases hs
      exact sessionKept_stores (sessionKept_without h.session hp) op
    | resume =>
      obtain ⟨p, hp, hmay, rfl⟩ := resume_cases hs
      have hok := h.sound p (mem_of_getElem? hp)
      exact sessionKept_resume (sessionKept_without h.session hp) hok (resumesInTime_of htime hp hmay)

theorem noTrace_step (htime : s.inTime a = true) {index : ℕ} (hindex : a.index = some index)
    (hp : s.tasks[index]? = some p) (htask : p.task = .login attempt pc)
    (hovertaken : attempt.generation ≠ s.loginGeneration) (hs : s.step a = some t) :
    s.NoTrace attempt pc t := by
  cases a with
  | store i =>
    obtain rfl := Option.some.inj hindex
    obtain ⟨task, op, hp', hop, rfl⟩ := store_cases hs
    obtain rfl := Option.some.inj (hp.symm.trans hp')
    obtain rfl : task = .login attempt pc := htask
    have hsaved : ∀ token hasDeviceId, pc = .writeServerUrl token hasDeviceId →
        s.store.serverUrl = some attempt.base := by
      rintro token hasDeviceId rfl
      have hnow := storesInTime_of htime hp
      simpa [storesInTime, hovertaken] using hnow
    have htrace := noTrace_stores hop hsaved
    exact ⟨htrace.serverUrl, htrace.bearers, htrace.token, htrace.currentUser⟩
  | resume i =>
    obtain rfl := Option.some.inj hindex
    obtain ⟨p', hp', hmay, rfl⟩ := resume_cases hs
    obtain rfl := Option.some.inj (hp.symm.trans hp')
    have hintime := resumesInTime_of htime hp hmay
    rw [htask] at hintime ⊢
    have htrace := noTrace_resumeLogin (s := s.without i) hovertaken hintime
    exact ⟨htrace.serverUrl, htrace.bearers, htrace.token, htrace.currentUser⟩
  | _ => exact nomatch hindex

theorem atRest_of_kept (h : s.Kept) (hrest : s.tasks = []) : s.AtRest := by
  constructor
  · intro token heq
    unfold AuthStore.restored at heq
    split_ifs at heq with hset
    have hunset : s.store.loggedOut = false := by
      by_contra hlogged
      simp [hlogged] at hset
    have hnot : s.tombstoneComes = false := by simp [tombstoneComes, hunset, hrest]
    exact h.tombstone.resolve_left (by simp [hnot]) token heq
  · intro token heq
    rcases h.session.token token heq with hdone | hnone | ⟨p, hp, -⟩
    · exact hdone
    · exact False.elim hnone
    · simp [hrest] at hp
  · intro attempt heq
    rcases h.session.currentUser attempt heq with hdone | ⟨token, htoken, rfl⟩
    · exact hdone
    · rcases h.session.token token htoken with hdone | hnone | ⟨p, hp, -⟩
      · exact hdone
      · exact False.elim hnone
      · simp [hrest] at hp

theorem traceless_of_kept (h : s.Kept) (htime : s.inTime a = true) : s.Traceless a :=
  ⟨fun _ _ _ _ hindex hp htask hovertaken _ hs => noTrace_step htime hindex hp htask hovertaken hs,
    atRest_of_kept h⟩

/-- A process that begins on what the one before has left: its attempts count from there. -/
def begun (loggedOut : Bool) (serverUrl text : Option String) (deleteFails : Bool) : Logins :=
  restart { store := ⟨loggedOut, serverUrl, text.map (⟨·, 0⟩)⟩ } deleteFails

theorem kept_begun (loggedOut : Bool) (serverUrl text : Option String) (deleteFails : Bool) :
    (begun loggedOut serverUrl text deleteFails).Kept := by
  have hearlier : ∀ token, (initialStore ⟨loggedOut, serverUrl, text.map (⟨·, 0⟩)⟩ deleteFails).token =
      some token → token.attempt = 0 := by
    intro token heq
    unfold initialStore at heq
    split_ifs at heq
    obtain ⟨text', -, rfl⟩ := map_eq_some_iff.mp heq
    rfl
  unfold begun restart
  split
  · refine ⟨?_, .inr hearlier, ⟨fun token' heq => ?_, nofun⟩⟩
    · intro p hp
      obtain rfl := mem_singleton.mp hp
      refine ⟨nofun, nofun, ?_, nofun⟩
      rintro attempt heq
      cases heq
      exact mem_singleton_self _
    · cases heq
      exact .inl (mem_singleton_self _)
  · exact ⟨nofun, .inr hearlier, sessionKept_none rfl rfl⟩

end Logins

/-- In a run whose steps all come in time no overtaken attempt leaves a trace, whatever the process began
with. -/
theorem cancelled_logins_traceless (loggedOut : Bool) (serverUrl text : Option String) (deleteFails : Bool)
    (as : List LoginAction)
    (h : loginMachine.Every (fun s _ a => s.inTime a = true)
      (Logins.begun loggedOut serverUrl text deleteFails) [] as) :
    loginMachine.Every (fun s _ a => s.Traceless a) (Logins.begun loggedOut serverUrl text deleteFails) [] as := by
  refine Machine.Every.imp (fun s _ => s.Kept) ?_ (fun _ _ _ hkept htime => Logins.traceless_of_kept hkept htime) as
    (Logins.kept_begun loggedOut serverUrl text deleteFails) h
  intro s es a t fs hkept htime hs
  obtain ⟨t', ht, heq⟩ := map_eq_some_iff.mp hs
  cases heq
  exact Logins.kept_step hkept htime ht

/-- An address is set, a claim is cancelled before its answer comes, and a login after it goes through. -/
def sampleLogins : List LoginAction :=
  let response : LoginResponse := { token := some "t", hasUser := true }
  [.setServerUrl "s", .store 0, .resume 1 {}, .resume 0 {}, .store 0, .resume 0 {},
    .login true, .store 0, .resume 0 {}, .resume 0 {}, .cancelLoginAttempts, .store 1, .resume 1 {},
    .resume 0 { response }, .resume 0 {},
    .login false, .store 0, .resume 0 {}, .resume 0 {}, .resume 0 { response }, .resume 0 {},
    .store 0, .resume 0 {}, .store 0, .resume 0 {}, .store 0, .resume 0 {}, .resume 0 {}, .logout]

theorem cancelled_logins_traceless_sample :
    loginMachine.Every (fun s _ a => s.Traceless a) (Logins.begun false none none false) [] sampleLogins := by
  have hcheck : (loginMachine.exec (fun s _ a => s.inTime a)
    (Logins.begun false none none false) [] sampleLogins).any
      (fun r => r.1.token = some ⟨"t", 4⟩ && r.1.store.restored = some ⟨"t", 4⟩) = true := by
    decide +kernel
  obtain ⟨⟨t, es⟩, hexec, -⟩ := (Option.any_eq_true ..).mp hcheck
  exact cancelled_logins_traceless false none none false sampleLogins
    (Machine.every_of_exec (fun _ _ _ htime => htime) sampleLogins hexec)

/-- A login is cancelled while it waits for the server; its response sets the token of the client all the
same. -/
theorem cancelled_login_sets_bearer : ¬∀ as,
    loginMachine.Every (fun s _ a => s.Traceless a) (Logins.begun false none none false) [] as := by
  intro h
  let as : List LoginAction := [.setServerUrl "s", .store 0, .resume 1 {}, .resume 0 {}, .store 0,
    .resume 0 {}, .login false, .store 0, .resume 0 {}, .resume 0 {}, .cancelLoginAttempts]
  let attempt : LoginAttempt := ⟨2, 0, "s", false⟩
  let reply : AuthReply := { response := { token := some "t", hasUser := true } }
  have hcheck : (loginMachine.exec (fun _ _ _ => true) (Logins.begun false none none false) [] as).any (fun r =>
      r.1.tasks[0]? = some ⟨.login attempt .request, false⟩ && r.1.loginGeneration = 3 && r.1.bearers =
        [none] && (r.1.step (.resume 0 reply)).any (·.bearers = [some ⟨"t", 2⟩])) = true := by
    decide +kernel
  obtain ⟨s, es, hpath, hs⟩ := Machine.path_of_check hcheck
  simp only [and_eq_true, decide_eq_true_eq] at hs
  obtain ⟨⟨⟨htask, hgeneration⟩, hbearers⟩, hset⟩ := hs
  obtain ⟨t, ht, hnew⟩ := (Option.any_eq_true ..).mp hset
  have htraceless : s.Traceless (.resume 0 reply) := (h (as ++ [_])).good hpath
  have hovertaken : attempt.generation ≠ s.loginGeneration := by simp [attempt, hgeneration]
  have htrace := htraceless.overtaken 0 _ attempt .request rfl htask rfl hovertaken t ht
  rcases htrace.bearers with hsame | ⟨hother, -⟩
  · rw [of_decide_eq_true hnew, hbearers] at hsame
    exact nomatch hsame
  · exact hother rfl

end LigamentApps.AuthState
