import Mathlib.Data.List.Perm.Basic
import LigamentApps.AuthState.Logins

/-!
# What waits for a login

The attempts that wait are of generations that have begun, and carry tokens of their own. An attempt whose
token is stored, and that is the latest, finds no other token in the storage, unless the write of an overtaken
attempt comes after its own. -/

namespace LigamentApps.AuthState

open List

theorem mem_iff_of_getElem? {α : Type*} {l : List α} {i : ℕ} {x : α} (h : l[i]? = some x) (y : α) :
    y ∈ l ↔ y = x ∨ y ∈ l.eraseIdx i := by
  obtain ⟨hlt, rfl⟩ := List.getElem?_eq_some_iff.mp h
  have hperm := getElem_cons_eraseIdx_perm hlt
  rw [← hperm.mem_iff, mem_cons]

/-- The token that an attempt carries. -/
def LoginPc.token : LoginPc → Option BearerToken
  | .writeToken token _ | .writeServerUrl token _ | .removeMarker token _ | .writeDeviceId token | .localDetect token
  | .refresh token => some token
  | _ => none

/-- An attempt of a generation whose token is stored, and that is not committed yet. -/
def PendingTask.holdsStored (generation : ℕ) (p : PendingTask) : Bool :=
  match p.task with
  | .login attempt (.writeToken _ _) => p.stored && attempt.generation = generation
  | .login attempt (.writeServerUrl _ _) | .login attempt (.removeMarker _ _) => attempt.generation = generation
  | _ => false

/-- The tombstone is still to be written. -/
def PendingTask.writesTombstone (p : PendingTask) : Bool := !p.stored && p.task.op = some .writeMarker

/-- What holds of a task, where a generation is the latest, and a token stored. -/
structure TaskOk (generation : ℕ) (finished : List ℕ) (stored : Option BearerToken) (p : PendingTask) : Prop where
  numbered : ∀ attempt pc, p.task = .login attempt pc → attempt.generation ≤ generation
  own : ∀ attempt pc, p.task = .login attempt pc → ∀ token, pc.token = some token →
    token.attempt = attempt.generation
  restores : ∀ attempt, p.task = .restoreProfile attempt → attempt ∈ finished
  holds : p.holdsStored generation = true → ∀ token, stored = some token → token.attempt = generation

/-- A task that is no attempt and restores nothing. -/
def AuthTask.isPlain : AuthTask → Bool
  | .login _ _ | .restoreProfile _ => false
  | _ => true

variable {generation : ℕ} {finished : List ℕ} {stored : Option BearerToken} {attempt : LoginAttempt} {pc : LoginPc}
  {p : PendingTask} {reply : AuthReply}

theorem generation_of_holdsStored (h : p.holdsStored generation = true) :
    ∃ attempt pc, p.task = .login attempt pc ∧ attempt.generation = generation := by
  unfold PendingTask.holdsStored at h
  split at h
  · rename_i attempt token hasDeviceId htask
    rw [Bool.and_eq_true, decide_eq_true_eq] at h
    exact ⟨attempt, _, htask, h.2⟩
  · rename_i attempt token hasDeviceId htask
    exact ⟨attempt, _, htask, of_decide_eq_true h⟩
  · rename_i attempt token hasDeviceId htask
    exact ⟨attempt, _, htask, of_decide_eq_true h⟩
  · exact nomatch h

theorem taskOk_of_isPlain (h : p.task.isPlain = true) : TaskOk generation finished stored p := by
  have hlogin : ∀ attempt pc, p.task ≠ .login attempt pc := fun _ _ heq => by simp [heq, AuthTask.isPlain] at h
  have hrestore : ∀ attempt, p.task ≠ .restoreProfile attempt := fun _ heq => by simp [heq, AuthTask.isPlain] at h
  refine ⟨fun _ _ heq => absurd heq (hlogin _ _), fun _ _ heq => absurd heq (hlogin _ _),
    fun _ heq => absurd heq (hrestore _), fun hholds => ?_⟩
  obtain ⟨attempt, pc, heq, -⟩ := generation_of_holdsStored hholds
  exact absurd heq (hlogin attempt pc)

/-- What an attempt waits for next. -/
inductive LoginPc.Next (generation : ℕ) : LoginPc → LoginPc → Prop
  | marker : Next generation .marker .posture
  | posture : Next generation .posture .request
  | request (response : LoginResponse) : Next generation .request (.answered response)
  | answered (response : LoginResponse) (text : String) (hasDeviceId : Bool) :
    Next generation (.answered response) (.writeToken ⟨text, generation⟩ hasDeviceId)
  | writeToken (token : BearerToken) (hasDeviceId : Bool) :
    Next generation (.writeToken token hasDeviceId) (.writeServerUrl token hasDeviceId)
  | writeServerUrl (token : BearerToken) (hasDeviceId : Bool) :
    Next generation (.writeServerUrl token hasDeviceId) (.removeMarker token hasDeviceId)
  | committed (token : BearerToken) : Next generation (.removeMarker token true) (.writeDeviceId token)
  | committedPlain (token : BearerToken) : Next generation (.removeMarker token false) (.refresh token)
  | writeDeviceId (token : BearerToken) : Next generation (.writeDeviceId token) (.localDetect token)
  | localDetect (token : BearerToken) : Next generation (.localDetect token) (.refresh token)

theorem stored_of_mayResume {op : StoreOp} (hmay : p.mayResume reply = true) (hop : p.task.op = some op)
    (hfails : (op.mayFail && reply.failed) = false) : p.stored = true := by
  simpa [PendingTask.mayResume, hop, hfails] using hmay

/-- A task that an attempt leaves when it goes on. -/
structure GoesOn (attempt : LoginAttempt) (pc : LoginPc) (reply : AuthReply) (pc' : LoginPc) : Prop where
  next : pc.Next attempt.generation pc'
  written : ∀ token hasDeviceId, pc = .writeToken token hasDeviceId → reply.failed = false

theorem TaskOk.next {pc' : LoginPc} {done : Bool} (h : TaskOk generation finished stored ⟨.login attempt pc, done⟩)
    (hmay : PendingTask.mayResume ⟨.login attempt pc, done⟩ reply = true) (hnext : GoesOn attempt pc reply pc') :
    TaskOk generation finished stored ⟨.login attempt pc', false⟩ := by
  have hown := h.own attempt pc rfl
  have htoken : ∀ token, pc'.token = some token → token.attempt = attempt.generation := by
    cases hnext.next with
    | answered => exact fun _ heq => Option.some.inj heq ▸ rfl
    | marker | posture | request => exact nofun
    | _ => exact hown
  have hholds : PendingTask.holdsStored generation ⟨.login attempt pc', false⟩ = true →
      PendingTask.holdsStored generation ⟨.login attempt pc, done⟩ = true := by
    cases hnext.next with
    | writeToken token hasDeviceId =>
      -- A write that has not failed is done, so that the token was held as a stored one before.
      have hwritten := hnext.written token hasDeviceId rfl
      have hdone : done = true := stored_of_mayResume hmay rfl (by simp [hwritten])
      exact fun hnow => by simpa [PendingTask.holdsStored, hdone] using hnow
    | writeServerUrl => exact id
    | _ => exact nofun
  refine ⟨?_, ?_, nofun, fun hnow => h.holds (hholds hnow)⟩
  · rintro attempt' pc'' heq
    cases heq
    exact h.numbered attempt pc rfl
  · rintro attempt' pc'' heq token hcarries
    cases heq
    exact htoken token hcarries

theorem not_writesTombstone_of_mayResume (hmay : p.mayResume reply = true) : p.writesTombstone = false := by
  by_cases hop : p.task.op = some .writeMarker
  · have hstored := stored_of_mayResume hmay hop rfl
    simp [PendingTask.writesTombstone, hstored]
  · simp [PendingTask.writesTombstone, hop]

namespace Logins

variable {s t : Logins}

/-- Everything that waits is as it should be. -/
def Sound (s : Logins) : Prop := ∀ p ∈ s.tasks, TaskOk s.loginGeneration s.finished s.store.token p

/-- The write of an overtaken token comes while the tombstone is set, and before the token of the latest
attempt is stored. -/
def tokenInTime (s : Logins) (attempt : LoginAttempt) : Bool :=
  attempt.generation = s.loginGeneration ||
    s.store.loggedOut && s.tasks.all fun p => !p.holdsStored s.loginGeneration

/-! ## Tasks that are added and taken out -/

theorem sound_goesOn {task : AuthTask} (h : s.Sound)
    (hok : TaskOk s.loginGeneration s.finished s.store.token ⟨task, false⟩) : (s.goesOn task).Sound := by
  intro p hp
  rcases mem_append.mp hp with hold | hnew
  · exact h p hold
  · obtain rfl := mem_singleton.mp hnew
    exact hok

theorem sound_without (h : s.Sound) (index : ℕ) : (s.without index).Sound :=
  fun p hp => h p (mem_of_mem_eraseIdx hp)

theorem sound_of_same (h : s.Sound) (htasks : t.tasks = s.tasks)
    (hgeneration : t.loginGeneration = s.loginGeneration)
    (hfinished : s.finished ⊆ t.finished) (htoken : t.store.token = s.store.token) : t.Sound := by
  intro p hp
  rw [htasks] at hp
  have hok := h p hp
  rw [hgeneration, htoken]
  exact ⟨hok.numbered, hok.own, fun attempt heq => hfinished (hok.restores attempt heq), hok.holds⟩

theorem sound_advance (h : s.Sound) (htasks : t.tasks = s.tasks)
    (hgeneration : t.loginGeneration = s.loginGeneration + 1) (hfinished : t.finished = s.finished) : t.Sound := by
  intro p hp
  rw [htasks] at hp
  have hok := h p hp
  rw [hgeneration, hfinished]
  refine ⟨fun attempt pc heq => Nat.le_succ_of_le (hok.numbered attempt pc heq), hok.own, hok.restores,
    fun hholds => ?_⟩
  obtain ⟨attempt, pc, heq, hnew⟩ := generation_of_holdsStored hholds
  have hold := hok.numbered attempt pc heq
  omega

theorem sound_login (h : s.Sound) (claim : Bool) : (s.login claim).Sound := by
  have hbegun : Sound { s with loginGeneration := s.loginGeneration + 1 } := sound_advance h rfl rfl rfl
  unfold login
  split
  · split_ifs
    · exact hbegun
    · refine sound_goesOn hbegun ⟨?_, ?_, nofun, nofun⟩
      · rintro attempt pc heq
        cases heq
        exact Nat.le_refl _
      · rintro attempt pc heq
        cases heq
        exact nofun
  · exact hbegun

theorem sound_cancelLoginAttempts (h : s.Sound) : s.cancelLoginAttempts.Sound :=
  sound_goesOn (sound_advance h rfl rfl rfl) (taskOk_of_isPlain rfl)

theorem sound_setServerUrl (h : s.Sound) (url : String) : (s.setServerUrl url).Sound := by
  have hcancelled := sound_cancelLoginAttempts h
  have hurl : Sound { s.cancelLoginAttempts with serverUrl := some url } :=
    sound_of_same hcancelled rfl rfl (List.Subset.refl _) rfl
  exact sound_goesOn hurl (taskOk_of_isPlain rfl)

theorem sound_logout (h : s.Sound) : s.logout.Sound :=
  sound_goesOn (sound_advance h rfl rfl rfl) (taskOk_of_isPlain rfl)

/-- What an attempt adds to the tasks when it goes on. -/
def Adds (s : Logins) (attempt : LoginAttempt) (pc : LoginPc) (reply : AuthReply) (t : Logins) : Prop :=
  ∀ p ∈ t.tasks, p ∈ s.tasks ∨ ∃ pc', p = ⟨.login attempt pc', false⟩ ∧ GoesOn attempt pc reply pc'

theorem adds_nothing (htasks : t.tasks = s.tasks) : s.Adds attempt pc reply t := fun _ hp => .inl (htasks ▸ hp)

theorem adds_goesOn {pc' : LoginPc} (htasks : t.tasks = s.tasks) (hnext : GoesOn attempt pc reply pc') :
    s.Adds attempt pc reply (t.goesOn (.login attempt pc')) := by
  intro p hp
  rcases mem_append.mp hp with hold | hnew
  · exact .inl (htasks ▸ hold)
  · exact .inr ⟨pc', mem_singleton.mp hnew, hnext⟩

theorem tasks_rollback (attempt : LoginAttempt) (token : BearerToken) :
    (s.rollback attempt token).tasks = s.tasks := by
  unfold rollback
  split_ifs <;> rfl

theorem tasks_takeResponse (attempt : LoginAttempt) (response : LoginResponse) :
    (s.takeResponse attempt response).tasks = s.tasks := by
  unfold takeResponse
  split_ifs <;> rfl

theorem finalizeLogin_adds (response : LoginResponse) :
    s.Adds attempt (.answered response) reply (s.finalizeLogin attempt response) := by
  unfold finalizeLogin
  split
  · split_ifs
    · exact adds_nothing rfl
    · exact adds_goesOn rfl ⟨.answered response _ _, nofun⟩
  · exact adds_nothing rfl

theorem resumeLogin_adds (s : Logins) (attempt : LoginAttempt) (reply : AuthReply) (pc : LoginPc) :
    s.Adds attempt pc reply (s.resumeLogin attempt reply pc) := by
  have hself : s.Adds attempt pc reply s := adds_nothing rfl
  have hback : ∀ token, s.Adds attempt pc reply (s.rollback attempt token) := fun token =>
    adds_nothing (tasks_rollback attempt token)
  cases pc with
  | marker =>
    simp only [resumeLogin]
    split_ifs
    · exact adds_goesOn rfl ⟨.marker, nofun⟩
    · exact hself
  | posture => exact adds_goesOn rfl ⟨.posture, nofun⟩
  | request =>
    simp only [resumeLogin]
    split_ifs
    · exact hself
    · exact adds_goesOn (tasks_takeResponse attempt reply.response) ⟨.request _, nofun⟩
  | answered response =>
    simp only [resumeLogin]
    split_ifs
    · exact finalizeLogin_adds response
    · exact hself
  | writeToken token hasDeviceId =>
    simp only [resumeLogin]
    split_ifs with hfailed
    · exact hself
    · exact adds_goesOn rfl ⟨.writeToken token hasDeviceId, fun _ _ _ => by simpa using hfailed⟩
  | writeServerUrl token hasDeviceId =>
    simp only [resumeLogin]
    split_ifs
    · exact adds_goesOn rfl ⟨.writeServerUrl token hasDeviceId, nofun⟩
    · exact hself
  | removeMarker token hasDeviceId =>
    simp only [resumeLogin]
    split_ifs
    · cases hasDeviceId
      · exact adds_goesOn rfl ⟨.committedPlain token, nofun⟩
      · exact adds_goesOn rfl ⟨.committed token, nofun⟩
    · exact hback token
  | writeDeviceId token =>
    simp only [resumeLogin]
    split_ifs
    · exact adds_goesOn rfl ⟨.writeDeviceId token, nofun⟩
    · exact hback token
  | localDetect token =>
    simp only [resumeLogin]
    split_ifs
    · exact adds_goesOn rfl ⟨.localDetect token, nofun⟩
    · exact hback token
  | refresh token =>
    simp only [resumeLogin]
    split_ifs
    · exact adds_nothing rfl
    · exact hback token

theorem resume_adds (s : Logins) (reply : AuthReply) (task : AuthTask) : ∀ p ∈ (s.resume reply task).tasks,
    p ∈ s.tasks ∨ p.stored = false ∧ p.task.isPlain = true ∨
      ∃ attempt pc pc', task = .login attempt pc ∧ p = ⟨.login attempt pc', false⟩ ∧
          GoesOn attempt pc reply pc' := by
  have hplain : ∀ {u : Logins} {task' : AuthTask}, u.tasks ⊆ s.tasks → task'.isPlain = true →
      ∀ p ∈ (u.goesOn task').tasks, p ∈ s.tasks ∨ p.stored = false ∧ p.task.isPlain = true := by
    intro u task' hsub hpl p hp
    rcases mem_append.mp hp with hold | hnew
    · exact .inl (hsub hold)
    · obtain rfl := mem_singleton.mp hnew
      exact .inr ⟨rfl, hpl⟩
  have hself : s.tasks ⊆ s.tasks := List.Subset.refl _
  intro p hp
  cases task with
  | login attempt pc =>
    rcases s.resumeLogin_adds attempt reply pc p hp with hold | ⟨pc', heq, hnext⟩
    · exact .inl hold
    · exact .inr (.inr ⟨attempt, pc, pc', rfl, heq, hnext⟩)
  | logout _ pc =>
    rw [← or_assoc]
    left
    cases pc with
    | marker =>
      rcases mem_append.mp hp with hcalled | hnew
      · unfold callLogout at hcalled
        split at hcalled
        · exact hplain hself rfl p hcalled
        · exact .inl hcalled
      · obtain rfl := mem_singleton.mp hnew
        exact .inr ⟨rfl, rfl⟩
    | secureStorage => exact .inl hp
    | localDetect => exact hplain hself rfl p hp
    | _ => exact hplain hself rfl p hp
  | serverUrlPreferences => exact (hplain hself rfl p hp).imp_right .inl
  | restoreProfile =>
    simp only [resume] at hp
    split_ifs at hp
    · exact .inl hp
    · exact (hplain (u := { s with
        loginGeneration := s.loginGeneration + 1, committedLoginGeneration := 0, lastWord := none })
        hself rfl p hp).imp_right .inl
    · exact .inl hp
  | _ => exact .inl hp

/-! ## What a task leaves alone -/

/-- The generation, the storage and the last word are as before, and what waits goes on waiting. -/
structure Frame (s t : Logins) : Prop where
  generation : t.loginGeneration = s.loginGeneration
  finished : s.finished ⊆ t.finished
  store : t.store = s.store
  lastWord : t.lastWord = s.lastWord
  tasks : s.tasks ⊆ t.tasks

theorem frame_refl (s : Logins) : s.Frame s := ⟨rfl, List.Subset.refl _, rfl, rfl, List.Subset.refl _⟩

theorem frame_goesOn (s : Logins) (task : AuthTask) : s.Frame (s.goesOn task) :=
  ⟨rfl, List.Subset.refl _, rfl, rfl, subset_append_left _ _⟩

theorem Frame.trans {u : Logins} (hfst : s.Frame t) (hsnd : t.Frame u) : s.Frame u :=
  ⟨hsnd.generation.trans hfst.generation, List.Subset.trans hfst.finished hsnd.finished,
    hsnd.store.trans hfst.store, hsnd.lastWord.trans hfst.lastWord, List.Subset.trans hfst.tasks hsnd.tasks⟩

theorem frame_rollback (s : Logins) (attempt : LoginAttempt) (token : BearerToken) :
    s.Frame (s.rollback attempt token) := by
  unfold rollback
  split_ifs <;> exact ⟨rfl, List.Subset.refl _, rfl, rfl, List.Subset.refl _⟩

theorem frame_takeResponse (s : Logins) (attempt : LoginAttempt) (response : LoginResponse) :
    s.Frame (s.takeResponse attempt response) := by
  unfold takeResponse
  split_ifs <;> exact ⟨rfl, List.Subset.refl _, rfl, rfl, List.Subset.refl _⟩

theorem frame_finalizeLogin (s : Logins) (attempt : LoginAttempt) (response : LoginResponse) :
    s.Frame (s.finalizeLogin attempt response) := by
  unfold finalizeLogin
  split
  · split_ifs
    · exact frame_refl s
    · exact frame_goesOn s _
  · exact frame_refl s

theorem frame_resumeLogin (s : Logins) (attempt : LoginAttempt) (reply : AuthReply) (pc : LoginPc) :
    s.Frame (s.resumeLogin attempt reply pc) := by
  cases pc with
  | posture => exact frame_goesOn s _
  | request =>
    simp only [resumeLogin]
    split_ifs
    · exact frame_refl s
    · exact (s.frame_takeResponse attempt reply.response).trans (frame_goesOn _ _)
  | answered response =>
    simp only [resumeLogin]
    split_ifs
    · exact s.frame_finalizeLogin attempt response
    · exact frame_refl s
  | removeMarker token =>
    simp only [resumeLogin]
    split_ifs
    · exact ⟨rfl, List.Subset.refl _, rfl, rfl, subset_append_left _ _⟩
    · exact s.frame_rollback attempt token
  | writeDeviceId token | localDetect token =>
    simp only [resumeLogin]
    split_ifs
    · exact frame_goesOn s _
    · exact s.frame_rollback attempt token
  | refresh token =>
    simp only [resumeLogin]
    split_ifs
    · exact ⟨rfl, subset_cons_self _ _, rfl, rfl, List.Subset.refl _⟩
    · exact s.frame_rollback attempt token
  | marker | writeServerUrl =>
    simp only [resumeLogin]
    split_ifs
    · exact frame_goesOn s _
    · exact frame_refl s
  | writeToken =>
    simp only [resumeLogin]
    split_ifs
    · exact frame_refl s
    · exact frame_goesOn s _

theorem frame_resumeLogout (s : Logins) (began : ℕ) (pc : LogoutPc) : s.Frame (s.resumeLogout began pc) := by
  cases pc with
  | marker =>
    have hcalled : s.Frame s.callLogout := by
      unfold callLogout
      split
      · exact frame_goesOn s _
      · exact frame_refl s
    exact hcalled.trans (frame_goesOn _ _)
  | secureStorage => exact frame_refl s
  | _ => exact ⟨rfl, List.Subset.refl _, rfl, rfl, subset_append_left _ _⟩

theorem frame_resume (s : Logins) (reply : AuthReply) (task : AuthTask) :
    s.Frame (s.resume reply task) ∨ s.resume reply task = s.logout := by
  cases task with
  | login attempt pc => exact .inl (s.frame_resumeLogin attempt reply pc)
  | logout began pc => exact .inl (s.frame_resumeLogout began pc)
  | serverUrlPreferences => exact .inl (frame_goesOn s _)
  | restoreProfile =>
    simp only [resume]
    split_ifs
    · exact .inl ⟨rfl, List.Subset.refl _, rfl, rfl, List.Subset.refl _⟩
    · exact .inr rfl
    · exact .inl (frame_refl s)
  | _ => exact .inl ⟨rfl, List.Subset.refl _, rfl, rfl, List.Subset.refl _⟩

theorem sound_resume (h : s.Sound) (hok : TaskOk s.loginGeneration s.finished s.store.token p)
    (hmay : p.mayResume reply = true) : (s.resume reply p.task).Sound := by
  rcases s.frame_resume reply p.task with hframe | hlogout
  · intro q hq
    rw [hframe.generation, hframe.store]
    have hkept : TaskOk s.loginGeneration s.finished s.store.token q := by
      rcases s.resume_adds reply p.task q hq with hold | ⟨-, hplain⟩ | ⟨attempt, pc, pc', htask, rfl, hnext⟩
      · exact h q hold
      · exact taskOk_of_isPlain hplain
      · obtain ⟨task, done⟩ := p
        obtain rfl : task = .login attempt pc := htask
        exact hok.next hmay hnext
    exact ⟨hkept.numbered, hkept.own, fun attempt heq => hframe.finished (hkept.restores attempt heq), hkept.holds⟩
  · rw [hlogout]
    exact sound_logout h

/-! ## Operations that are done -/

theorem sound_stores_token (h : s.Sound) {token : BearerToken} {hasDeviceId : Bool}
    (hok : TaskOk s.loginGeneration s.finished s.store.token ⟨.login attempt (.writeToken token hasDeviceId), false⟩)
    (htime : s.tokenInTime attempt = true) :
    (s.stores (.login attempt (.writeToken token hasDeviceId)) (.writeToken token)).Sound := by
  have hown : token.attempt = attempt.generation := hok.own attempt _ rfl token rfl
  intro p hp
  rcases mem_append.mp hp with hold | hnew
  · have hbefore := h p hold
    refine ⟨hbefore.numbered, hbefore.own, hbefore.restores, fun hholds stored heq => ?_⟩
    cases heq
    simp only [tokenInTime, Bool.or_eq_true, Bool.and_eq_true, decide_eq_true_eq, all_eq_true] at htime
    rcases htime with hlatest | ⟨-, hnone⟩
    · exact hown.trans hlatest
    · have hnot := hnone p hold
      simp only [stores] at hholds
      simp [hholds] at hnot
  · obtain rfl := mem_singleton.mp hnew
    refine ⟨hok.numbered, hok.own, nofun, fun hholds stored heq => ?_⟩
    cases heq
    simp only [PendingTask.holdsStored, Bool.true_and, decide_eq_true_eq] at hholds
    exact hown.trans hholds

theorem sound_stores {task : AuthTask} {op : StoreOp} (h : s.Sound)
    (hok : TaskOk s.loginGeneration s.finished s.store.token ⟨task, false⟩) (hop : task.op = some op)
    (htime : ∀ attempt token hasDeviceId, task = .login attempt (.writeToken token hasDeviceId) →
      s.tokenInTime attempt = true) : (s.stores task op).Sound := by
  -- Other operations leave the token, or delete it.
  have hother : (∀ token, (op.apply s.store).token = some token → s.store.token = some token) →
      (PendingTask.holdsStored s.loginGeneration ⟨task, true⟩ = true →
        PendingTask.holdsStored s.loginGeneration ⟨task, false⟩ = true) → (s.stores task op).Sound := by
    intro hkept hheld p hp
    rcases mem_append.mp hp with hold | hnew
    · have hbefore := h p hold
      exact ⟨hbefore.numbered, hbefore.own, hbefore.restores, fun hholds token heq =>
        hbefore.holds hholds token (hkept token heq)⟩
    · obtain rfl := mem_singleton.mp hnew
      exact ⟨hok.numbered, hok.own, hok.restores, fun hholds token heq =>
        hok.holds (hheld hholds) token (hkept token heq)⟩
  cases task with
  | login attempt pc =>
    cases pc with
    | writeToken token hasDeviceId =>
      cases hop
      exact sound_stores_token h hok (htime attempt token hasDeviceId rfl)
    | marker | writeServerUrl | removeMarker =>
      cases hop
      exact hother (fun _ heq => heq) id
    | _ => exact nomatch hop
  | logout _ pc =>
    cases pc with
    | marker =>
      cases hop
      exact hother (fun _ heq => heq) id
    | secureStorage =>
      cases hop
      exact hother nofun id
    | _ => exact nomatch hop
  | marker | serverUrlWrite =>
    cases hop
    exact hother (fun _ heq => heq) id
  | _ => exact nomatch hop

/-! ## Taking a task -/

theorem store_cases {index : ℕ} (hs : s.step (.store index) = some t) :
    ∃ task op, s.tasks[index]? = some ⟨task, false⟩ ∧ task.op = some op ∧ t = (s.without index).stores task op := by
  simp only [step, bind, Option.bind_eq_some_iff] at hs
  obtain ⟨⟨task, done⟩, hp, ⟨⟩, hguard, op, hop, ht⟩ := hs
  have hpending : done = false := by
    by_contra hnot
    simp [guard, hnot] at hguard
  obtain rfl := hpending
  exact ⟨task, op, hp, hop, (Option.some.inj ht).symm⟩

theorem resume_cases {index : ℕ} (hs : s.step (.resume index reply) = some t) :
    ∃ p, s.tasks[index]? = some p ∧ p.mayResume reply = true ∧ t = (s.without index).resume reply p.task := by
  simp only [step, bind, Option.bind_eq_some_iff] at hs
  obtain ⟨p, hp, ⟨⟩, hguard, ht⟩ := hs
  have hmay : p.mayResume reply = true := by
    by_contra hnot
    simp [guard, hnot] at hguard
  exact ⟨p, hp, hmay, (Option.some.inj ht).symm⟩

/-- The write of a token that is done in this step comes in time. -/
def StoresInTime (s : Logins) (a : LoginAction) : Prop :=
  ∀ index attempt token hasDeviceId, a = .store index →
    s.tasks[index]? = some ⟨.login attempt (.writeToken token hasDeviceId), false⟩ → s.tokenInTime attempt = true

theorem tokenInTime_without (h : s.tokenInTime attempt = true) (index : ℕ) :
    (s.without index).tokenInTime attempt = true := by
  simp only [tokenInTime, Bool.or_eq_true, Bool.and_eq_true, all_eq_true] at h ⊢
  rcases h with hlatest | ⟨hlogged, hnone⟩
  · exact .inl hlatest
  · exact .inr ⟨hlogged, fun p hp => hnone p (mem_of_mem_eraseIdx hp)⟩

theorem sound_step {a : LoginAction} (h : s.Sound) (htime : s.StoresInTime a) (hs : s.step a = some t) :
    t.Sound := by
  cases a with
  | login claim =>
    cases hs
    exact sound_login h claim
  | cancelLoginAttempts =>
    cases hs
    exact sound_cancelLoginAttempts h
  | setServerUrl url =>
    cases hs
    exact sound_setServerUrl h url
  | logout =>
    cases hs
    exact sound_logout h
  | store index =>
    obtain ⟨task, op, hp, hop, rfl⟩ := store_cases hs
    have hok := h _ (mem_of_getElem? hp)
    refine sound_stores (sound_without h index) hok hop fun attempt token hasDeviceId heq => ?_
    have hintime := htime index attempt token hasDeviceId rfl (heq ▸ hp)
    exact tokenInTime_without hintime index
  | resume index =>
    obtain ⟨p, hp, hmay, rfl⟩ := resume_cases hs
    have hok := h p (mem_of_getElem? hp)
    exact sound_resume (sound_without h index) hok hmay

end Logins

end LigamentApps.AuthState
