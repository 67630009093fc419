import LigamentApps.AuthState.CancelledLogins

/-!
# Logouts last

A restart at any point must not bring back a token, unless a login has removed the tombstone since the last
logout or cancellation began, and then only the token of that login; and a logout that still runs must leave
alone the session and the token of a login that came after it. Both hold as long as no process ends before a
tombstone that is due is written, tokens and tombstones are stored and removed for the latest attempt, and no
older logout comes to its end after a later login. -/

namespace LigamentApps.AuthState

open List Option

variable {task : AuthTask} {index : ℕ} {op : StoreOp} (deleteFails : Bool)

/-- An attempt of a generation that has written its tombstone, and has not committed yet. -/
def PendingTask.isTombstoned (generation : ℕ) (p : PendingTask) : Bool :=
  match p.task with
  | .login attempt .marker => p.stored && attempt.generation = generation
  | .login attempt .posture | .login attempt .request | .login attempt (.answered _)
  | .login attempt (.writeToken _ _) | .login attempt (.writeServerUrl _ _) | .login attempt (.removeMarker _ _) =>
    attempt.generation = generation
  | _ => false

namespace Logins

/-! ## What is asked for -/

/-- A logout leaves the session and the token of a later login, and its client as soon as its tombstone is
removed. -/
structure LeavesLater (s : Logins) (began : ℕ) (t : Logins) : Prop where
  session : ∀ token, s.token = some token → began < token.attempt →
    t.token = s.token ∧ t.currentUser = s.currentUser ∧ t.api = s.api
  client : ∀ attempt, s.lastWord = some attempt → began < attempt → t.api = s.api
  stored : ∀ token, s.store.token = some token → began < token.attempt → t.store.token = s.store.token

/-- A restart brings back at most the token of the login that had the last word, and a logout leaves later
logins. -/
structure Durable (s : Logins) (a : ProcessAction) : Prop where
  restart : ∀ deleteFails, a = .restart deleteFails → ∀ token, (s.restart deleteFails).token = some token →
    s.lastWord = some token.attempt
  logout : ∀ action index p began pc, a = .act action → action.index = some index → s.tasks[index]? = some p →
    p.task = .logout began pc → ∀ t, s.step action = some t → s.LeavesLater began t

/-! ## What keeps the last word -/

/-- An operation keeps the last word: the tombstone is removed for the latest attempt with its client, and a
logout deletes no token of a later login. -/
def storesWord (s : Logins) : AuthTask → Bool
  | .login attempt (.writeToken _ _) => s.tokenInTime attempt
  | .login attempt (.removeMarker _ _) => s.isCurrent attempt
  | .logout began .secureStorage => s.store.token.all (·.attempt ≤ began)
  | _ => true

/-- A logout that resets the session finds none of a later login, and no later login that has removed the
tombstone. -/
def resumesWord (s : Logins) : AuthTask → Bool
  | .logout began .localDetect => s.token.all (·.attempt ≤ began) && s.lastWord.all (· ≤ began)
  | _ => true

/-- A step keeps the last word. A process does not end between a logout or a cancellation and its tombstone,
unless there is nothing to restore. -/
def keepsWord (s : Logins) : ProcessAction → Bool
  | .restart _ =>
    s.store.loggedOut || s.store.token.isNone || s.lastWord.isSome || s.tasks.all fun p => !p.writesTombstone
  | .act (.store index) => s.tasks[index]?.all fun p => p.stored || s.storesWord p.task
  | .act (.resume index reply) => s.tasks[index]?.all fun p => !p.mayResume reply || s.resumesWord p.task
  | .act _ => true

/-! ## Attempts under a tombstone -/

variable {s t : Logins} {attempt : LoginAttempt} {pc : LoginPc} {reply : AuthReply} {generation : ℕ} {p : PendingTask}

theorem generation_of_isTombstoned (h : p.isTombstoned generation = true) :
    ∃ attempt pc, p.task = .login attempt pc ∧ attempt.generation = generation := by
  obtain ⟨task, done⟩ := p
  cases task with
  | login attempt pc =>
    refine ⟨attempt, pc, rfl, ?_⟩
    cases pc with
    | marker =>
      simp only [PendingTask.isTombstoned, Bool.and_eq_true, decide_eq_true_eq] at h
      exact h.2
    | writeDeviceId | localDetect | refresh => exact nomatch h
    | _ => exact of_decide_eq_true h
  | _ => exact nomatch h

theorem isTombstoned_of_goesOn {pc' : LoginPc} {done : Bool}
    (hmay : PendingTask.mayResume ⟨.login attempt pc, done⟩ reply = true) (hnext : GoesOn attempt pc reply pc')
    (h : PendingTask.isTombstoned generation ⟨.login attempt pc', false⟩ = true) :
    PendingTask.isTombstoned generation ⟨.login attempt pc, done⟩ = true := by
  cases hnext.next with
  | marker =>
    have hdone : done = true := stored_of_mayResume hmay rfl rfl
    simpa [PendingTask.isTombstoned, hdone] using h
  | posture | request | answered | writeToken | writeServerUrl => exact h
  | _ => exact nomatch h

/-- The latest attempt, where it has written its tombstone, still has it, or has removed it itself. -/
def Tombstoned (s : Logins) : Prop := ∀ p ∈ s.tasks, p.isTombstoned s.loginGeneration = true →
  s.store.loggedOut = true ∨ s.lastWord = some s.loginGeneration

theorem tombstoned_advance (h : s.Sound) (hgeneration : t.loginGeneration = s.loginGeneration + 1)
    (htasks : ∀ p ∈ t.tasks, p ∈ s.tasks ∨ p.stored = false ∧
      ∀ attempt pc, p.task = .login attempt pc → pc = .marker) : t.Tombstoned := by
  intro p hp htombstoned
  obtain ⟨attempt, pc, heq, hnew⟩ := generation_of_isTombstoned htombstoned
  rcases htasks p hp with hold | ⟨hpending, hmarker⟩
  · have hbefore := (h p hold).numbered attempt pc heq
    omega
  · obtain rfl := hmarker attempt pc heq
    simp [PendingTask.isTombstoned, heq, hpending] at htombstoned

theorem tombstoned_resume (h : s.Tombstoned) (hsound : s.Sound) (hp : s.tasks[index]? = some p)
    (hmay : p.mayResume reply = true) : ((s.without index).resume reply p.task).Tombstoned := by
  rcases frame_resume (s.without index) reply p.task with hframe | hlogout
  · intro q hq htombstoned
    rw [hframe.generation] at htombstoned ⊢
    rw [hframe.store, hframe.lastWord]
    rcases resume_adds (s.without index) reply p.task q hq with
      hold | ⟨-, hplain⟩ | ⟨attempt, pc, pc', htask, rfl, hnext⟩
    · exact h q (mem_of_mem_eraseIdx hold) htombstoned
    · obtain ⟨attempt, pc, heq, -⟩ := generation_of_isTombstoned htombstoned
      rw [heq] at hplain
      exact nomatch hplain
    · have hbefore : p.isTombstoned s.loginGeneration = true := by
        obtain ⟨task, done⟩ := p
        obtain rfl : task = .login attempt pc := htask
        exact isTombstoned_of_goesOn hmay hnext htombstoned
      exact h p (mem_of_getElem? hp) hbefore
  · rw [hlogout]
    refine tombstoned_advance (sound_without hsound index) rfl fun q hq => ?_
    rcases mem_append.mp hq with hold | hnew
    · exact .inl hold
    · obtain rfl := mem_singleton.mp hnew
      exact .inr ⟨rfl, nofun⟩

/-! ## The last word -/

/-- The tombstone is set, or is due after a logout or a cancellation, or the token stored is of the login that
had the last word. -/
def WordHolds (s : Logins) : Prop :=
  s.store.loggedOut = true ∨ (s.lastWord = none ∧ ∃ p ∈ s.tasks, p.writesTombstone = true) ∨
    ∀ token, s.store.token = some token → s.lastWord = some token.attempt

theorem wordHolds_begun (hword : s.lastWord = none) (htask : ∃ p ∈ s.tasks, p.writesTombstone = true) :
    s.WordHolds :=
  .inr (.inl ⟨hword, htask⟩)

theorem wordHolds_same (h : s.WordHolds) (hstore : t.store = s.store) (hword : t.lastWord = s.lastWord)
    (htasks : ∀ p ∈ s.tasks, p.writesTombstone = true → p ∈ t.tasks) : t.WordHolds := by
  unfold WordHolds
  rw [hstore, hword]
  refine h.imp_right (.imp_left fun ⟨hnone, p, hp, hwrites⟩ => ⟨hnone, p, htasks p hp hwrites, hwrites⟩)

theorem wordHolds_resume (h : s.WordHolds) (hp : s.tasks[index]? = some p)
    (hmay : p.mayResume reply = true) : ((s.without index).resume reply p.task).WordHolds := by
  rcases frame_resume (s.without index) reply p.task with hframe | hlogout
  · refine wordHolds_same h hframe.store hframe.lastWord fun q hq hwrites => hframe.tasks ?_
    rcases (mem_iff_of_getElem? hp q).mp hq with rfl | hrest
    · simp [not_writesTombstone_of_mayResume hmay] at hwrites
    · exact hrest
  · rw [hlogout]
    exact wordHolds_begun rfl ⟨_, mem_append_right _ (mem_singleton_self _), rfl⟩

theorem stores_plain (hp : s.tasks[index]? = some ⟨task, false⟩) (hop : task.op = some op)
    (hmarker : op ≠ .writeMarker) (hlogged : (op.apply s.store).loggedOut = s.store.loggedOut)
    (htoken : (op.apply s.store).token = s.store.token) (hword : s.wordAfter task = s.lastWord)
    (h : s.WordHolds) : ((s.without index).stores task op).WordHolds := by
  have hnow : ((s.without index).stores task op).lastWord = s.lastWord := hword
  unfold WordHolds
  rw [hnow]
  refine h.imp hlogged.trans (.imp ?_ fun hlast token heq => hlast token (htoken ▸ heq))
  rintro ⟨hnone, q, hq, hwrites⟩
  refine ⟨hnone, q, mem_append_left _ ?_, hwrites⟩
  rcases (mem_iff_of_getElem? hp q).mp hq with rfl | hrest
  · simp [PendingTask.writesTombstone, hop, hmarker] at hwrites
  · exact hrest

theorem wordHolds_stores (h : s.WordHolds) (htombstoned : s.Tombstoned)
    (hp : s.tasks[index]? = some ⟨task, false⟩) (hop : task.op = some op)
    (hok : TaskOk s.loginGeneration s.finished s.store.token ⟨task, false⟩)
    (hkeeps : s.storesWord task = true) : ((s.without index).stores task op).WordHolds := by
  cases task with
  | login attempt pc =>
    cases pc with
    | marker =>
      cases hop
      exact .inl rfl
    | writeToken token =>
      cases hop
      have hown : token.attempt = attempt.generation := hok.own attempt _ rfl token rfl
      simp only [storesWord, tokenInTime, Bool.or_eq_true, Bool.and_eq_true, decide_eq_true_eq] at hkeeps
      rcases hkeeps with hlatest | ⟨hlogged, -⟩
      · -- The latest attempt stores its token under its tombstone, or after it has removed it.
        have hunder := htombstoned _ (mem_of_getElem? hp) (decide_eq_true hlatest)
        refine hunder.imp_right fun hword => .inr fun token' heq => ?_
        cases heq
        rw [hown, hlatest]
        exact hword
      · exact .inl hlogged
    | writeServerUrl =>
      cases hop
      exact stores_plain hp rfl (by simp) rfl rfl rfl h
    | removeMarker =>
      cases hop
      right
      right
      intro token' heq
      have hcurrent : (s.without index).isCurrent attempt = true := hkeeps
      have hlatest : attempt.generation = s.loginGeneration := by
        simp only [storesWord, isCurrent, Bool.and_eq_true, decide_eq_true_eq] at hkeeps
        exact hkeeps.1
      have hattempt : token'.attempt = s.loginGeneration := hok.holds (decide_eq_true hlatest) token' heq
      simp only [stores, wordAfter, hcurrent, if_true]
      rw [hattempt, hlatest]
    | _ => cases hop
  | logout _ pc =>
    cases pc with
    | marker =>
      cases hop
      exact .inl rfl
    | secureStorage =>
      cases hop
      exact .inr (.inr fun _ heq => by cases heq)
    | _ => cases hop
  | marker =>
    cases hop
    exact .inl rfl
  | serverUrlWrite =>
    cases hop
    exact stores_plain hp rfl (by simp) rfl rfl rfl h
  | _ => cases hop

theorem tombstoned_stores (h : s.Tombstoned) (hp : s.tasks[index]? = some ⟨task, false⟩)
    (hop : task.op = some op) (hkeeps : s.storesWord task = true) :
    ((s.without index).stores task op).Tombstoned := by
  -- An operation that leaves the tombstone and the last word.
  have hother : (op.apply s.store).loggedOut = s.store.loggedOut → s.wordAfter task = s.lastWord →
      (PendingTask.isTombstoned s.loginGeneration ⟨task, true⟩ = true →
        PendingTask.isTombstoned s.loginGeneration ⟨task, false⟩ = true) →
      ((s.without index).stores task op).Tombstoned := by
    intro hlogged hword hsame q hq htombstoned
    have hbefore : s.store.loggedOut = true ∨ s.lastWord = some s.loginGeneration := by
      rcases mem_append.mp hq with hold | hnew
      · exact h q (mem_of_mem_eraseIdx hold) htombstoned
      · obtain rfl := mem_singleton.mp hnew
        exact h _ (mem_of_getElem? hp) (hsame htombstoned)
    exact hbefore.imp hlogged.trans hword.trans
  cases task with
  | login attempt pc =>
    cases pc with
    | marker =>
      cases hop
      exact fun _ _ _ => .inl rfl
    | removeMarker =>
      cases hop
      have hcurrent : (s.without index).isCurrent attempt = true := hkeeps
      have hlatest : attempt.generation = s.loginGeneration := by
        simp only [storesWord, isCurrent, Bool.and_eq_true, decide_eq_true_eq] at hkeeps
        exact hkeeps.1
      intro q hq htombstoned
      right
      simp only [stores, wordAfter, hcurrent, if_true]
      exact congrArg some hlatest
    | writeToken | writeServerUrl =>
      cases hop
      exact hother rfl rfl id
    | _ => cases hop
  | logout _ pc =>
    cases pc with
    | marker =>
      cases hop
      exact fun _ _ _ => .inl rfl
    | secureStorage =>
      cases hop
      exact hother rfl rfl id
    | _ => cases hop
  | marker =>
    cases hop
    exact fun _ _ _ => .inl rfl
  | serverUrlWrite =>
    cases hop
    exact hother rfl rfl id
  | _ => cases hop

/-! ## Steps, restarts and runs -/

/-- What holds of every state of a run that keeps the last word. -/
structure WordKept (s : Logins) : Prop where
  sound : s.Sound
  tombstoned : s.Tombstoned
  word : s.WordHolds

theorem wordKept_begun (h : s.Sound) (hgeneration : t.loginGeneration = s.loginGeneration + 1)
    (hword : t.lastWord = none)
    (hsound : t.Sound) (htask : ∃ p ∈ t.tasks, p.writesTombstone = true)
    (htasks : ∀ p ∈ t.tasks, p ∈ s.tasks ∨ p.stored = false ∧ ∀ attempt pc, p.task = .login attempt pc →
      pc = .marker) :
    t.WordKept :=
  ⟨hsound, tombstoned_advance h hgeneration htasks, wordHolds_begun hword htask⟩

theorem added_goesOn (hmarker : ∀ attempt pc, task = .login attempt pc → pc = .marker) :
    ∀ p ∈ (s.goesOn task).tasks, p ∈ s.tasks ∨ p.stored = false ∧
      ∀ attempt pc, p.task = .login attempt pc → pc = .marker := by
  intro p hp
  rcases mem_append.mp hp with hold | hnew
  · exact .inl hold
  · obtain rfl := mem_singleton.mp hnew
    exact .inr ⟨rfl, hmarker⟩

theorem wordKept_login (h : s.WordKept) (claim : Bool) : (s.login claim).WordKept := by
  have hnone : ∀ p ∈ s.tasks, p ∈ s.tasks ∨ p.stored = false ∧
      ∀ attempt pc, p.task = .login attempt pc → pc = .marker := fun _ hp => .inl hp
  refine ⟨sound_login h.sound claim, ?_, ?_⟩
  · unfold login
    split
    · split_ifs
      · exact tombstoned_advance h.sound rfl hnone
      · refine tombstoned_advance h.sound rfl (added_goesOn ?_)
        rintro attempt pc heq
        exact (AuthTask.login.inj heq).2.symm
    · exact tombstoned_advance h.sound rfl hnone
  · unfold login
    split
    · split_ifs
      · exact wordHolds_same h.word rfl rfl fun _ hp _ => hp
      · exact wordHolds_same h.word rfl rfl fun _ hp _ => mem_append_left _ hp
    · exact wordHolds_same h.word rfl rfl fun _ hp _ => hp

theorem wordKept_step {a : LoginAction} (h : s.WordKept) (hkeeps : s.keepsWord (.act a) = true)
    (hs : s.step a = some t) : t.WordKept := by
  have hnew : ∀ {l : List PendingTask} {p : PendingTask}, p ∈ l ++ [p] := fun {_ _} =>
    mem_append_right _ (mem_singleton_self _)
  cases a with
  | login claim =>
    cases hs
    exact wordKept_login h claim
  | cancelLoginAttempts =>
    cases hs
    exact wordKept_begun h.sound rfl rfl (sound_cancelLoginAttempts h.sound) ⟨_, hnew, rfl⟩ (added_goesOn nofun)
  | setServerUrl url =>
    cases hs
    refine wordKept_begun h.sound rfl rfl (sound_setServerUrl h.sound url) ⟨_, mem_append_left _ hnew, rfl⟩ ?_
    intro p hp
    rcases mem_append.mp hp with hcancelled | hlast
    · rcases mem_append.mp hcancelled with hold | hmarker
      · exact .inl hold
      · obtain rfl := mem_singleton.mp hmarker
        exact .inr ⟨rfl, nofun⟩
    · obtain rfl := mem_singleton.mp hlast
      exact .inr ⟨rfl, nofun⟩
  | logout =>
    cases hs
    exact wordKept_begun h.sound rfl rfl (sound_logout h.sound) ⟨_, hnew, rfl⟩ (added_goesOn nofun)
  | store index =>
    obtain ⟨task, op, hp, hop, rfl⟩ := store_cases hs
    have hok := h.sound _ (mem_of_getElem? hp)
    have hword : s.storesWord task = true := by simpa [keepsWord, hp] using hkeeps
    refine ⟨sound_stores (sound_without h.sound index) hok hop ?_,
      tombstoned_stores h.tombstoned hp hop hword, wordHolds_stores h.word h.tombstoned hp hop hok hword⟩
    rintro attempt token hasDeviceId rfl
    exact tokenInTime_without hword index
  | resume index =>
    obtain ⟨p, hp, hmay, rfl⟩ := resume_cases hs
    have hok := h.sound p (mem_of_getElem? hp)
    exact ⟨sound_resume (sound_without h.sound index) hok hmay,
      tombstoned_resume h.tombstoned h.sound hp hmay, wordHolds_resume h.word hp hmay⟩

theorem token_restart : (s.restart deleteFails).token = s.store.restored := by
  unfold restart
  split
  · rename_i token heq
    exact heq.symm
  · rename_i heq
    exact heq.symm

theorem store_restart : (s.restart deleteFails).store = initialStore s.store deleteFails ∧
    (s.restart deleteFails).lastWord = s.lastWord := by
  unfold restart
  split <;> exact ⟨rfl, rfl⟩

theorem tasks_restart : ∀ p ∈ (s.restart deleteFails).tasks,
    ∃ attempt, p = ⟨.restoreProfile attempt, false⟩ ∧ attempt ∈ (s.restart deleteFails).finished := by
  unfold restart
  split
  · rename_i token heq
    intro p hp
    obtain rfl := mem_singleton.mp hp
    exact ⟨token.attempt, rfl, mem_singleton_self _⟩
  · exact nofun

theorem lastWord_of_restored (h : s.WordHolds) {deleteFails : Bool}
    (hkeeps : s.keepsWord (.restart deleteFails) = true) :
    s.store.loggedOut = true ∨ ∀ token, s.store.token = some token → s.lastWord = some token.attempt := by
  rcases h with hlogged | ⟨hnone, p, hp, hwrites⟩ | hword
  · exact .inl hlogged
  · simp only [keepsWord, Bool.or_eq_true, hnone, isSome_none, Bool.false_eq_true, or_false,
      isNone_iff_eq_none, List.all_eq_true] at hkeeps
    rcases hkeeps with (hlogged | hempty) | hall
    · exact .inl hlogged
    · exact .inr fun token heq => nomatch hempty.symm.trans heq
    · exact absurd hwrites (by simpa using hall p hp)
  · exact .inr hword

theorem wordKept_restart (h : s.WordKept) {deleteFails : Bool} (hkeeps : s.keepsWord (.restart deleteFails) = true) :
    (s.restart deleteFails).WordKept := by
  obtain ⟨hstore, hword⟩ := s.store_restart deleteFails
  refine ⟨fun p hp => ?_, fun p hp htombstoned => ?_, ?_⟩
  · obtain ⟨attempt, rfl, hfinished⟩ := s.tasks_restart deleteFails p hp
    refine ⟨nofun, nofun, ?_, nofun⟩
    rintro attempt' heq
    cases heq
    exact hfinished
  · obtain ⟨attempt, rfl, -⟩ := s.tasks_restart deleteFails p hp
    exact nomatch htombstoned
  · unfold WordHolds
    rw [hstore, hword]
    unfold initialStore
    refine (lastWord_of_restored h.word hkeeps).imp (fun hlogged => ?_) fun hlast => .inr ?_
    · split_ifs <;> exact hlogged
    · split_ifs
      · exact nofun
      · exact hlast

theorem leavesLater_step {a : LoginAction} (hkeeps : s.keepsWord (.act a) = true) {began : ℕ}
    {pc : LogoutPc} (hindex : a.index = some index) (hp : s.tasks[index]? = some p)
    (htask : p.task = .logout began pc) (hs : s.step a = some t) : s.LeavesLater began t := by
  have hsame : ∀ {u : Logins}, u.token = s.token → u.currentUser = s.currentUser → u.api = s.api →
      u.store.token = s.store.token → s.LeavesLater began u := fun htoken huser hapi hstored =>
    ⟨fun _ _ _ => ⟨htoken, huser, hapi⟩, fun _ _ _ => hapi, fun _ _ _ => hstored⟩
  cases a with
  | store =>
    cases hindex
    obtain ⟨task, op, hp', hop, rfl⟩ := store_cases hs
    cases hp.symm.trans hp'
    obtain rfl : task = .logout began pc := htask
    cases pc with
    | marker =>
      cases hop
      exact hsame rfl rfl rfl rfl
    | secureStorage =>
      cases hop
      refine ⟨fun _ _ _ => ⟨rfl, rfl, rfl⟩, fun _ _ _ => rfl, fun token heq hlater => ?_⟩
      have hearlier : token.attempt ≤ began := by simpa [keepsWord, hp, storesWord, heq] using hkeeps
      omega
    | _ => cases hop
  | resume =>
    cases hindex
    obtain ⟨p', hp', hmay, rfl⟩ := resume_cases hs
    cases hp.symm.trans hp'
    rw [htask]
    cases pc with
    | marker =>
      simp only [resume, resumeLogout, callLogout]
      split <;> exact hsame rfl rfl rfl rfl
    | localDetect =>
      have hearlier : s.token.all (·.attempt ≤ began) = true ∧ s.lastWord.all (· ≤ began) = true := by
        simpa [keepsWord, hp, hmay, htask, resumesWord] using hkeeps
      refine ⟨fun token heq hlater => ?_, fun attempt heq hlater => ?_, fun _ _ _ => rfl⟩
      · have hbefore : token.attempt ≤ began := by simpa [heq] using hearlier.1
        omega
      · have hbefore : attempt ≤ began := by simpa [heq] using hearlier.2
        omega
    | _ => exact hsame rfl rfl rfl rfl
  | _ => cases hindex

theorem durable_of_wordKept {a : ProcessAction} (h : s.WordKept) (hkeeps : s.keepsWord a = true) : s.Durable a := by
  constructor
  · rintro deleteFails rfl token heq
    rw [token_restart deleteFails] at heq
    unfold AuthStore.restored at heq
    split_ifs at heq with hset
    have hunset : ¬s.store.loggedOut = true := fun hlogged => hset (by simp [hlogged])
    exact (lastWord_of_restored h.word hkeeps).resolve_left hunset token heq
  · rintro action index p began pc rfl hindex hp htask t hs
    exact leavesLater_step hkeeps hindex hp htask hs

theorem wordKept_start : WordKept {} := ⟨nofun, nofun, .inr (.inr nofun)⟩

end Logins

/-- In a run over several processes whose steps all keep the last word, a restart brings back at most the
token of the login that had it, and no logout takes anything from a later login. -/
theorem logout_durable (as : List ProcessAction)
    (h : processMachine.Every (fun s _ a => s.keepsWord a = true) {} [] as) :
    processMachine.Every (fun s _ a => s.Durable a) {} [] as := by
  refine Machine.Every.imp (fun s _ => s.WordKept) ?_
    (fun _ _ _ hkept hkeeps => Logins.durable_of_wordKept hkept hkeeps)
    as Logins.wordKept_start h
  intro s es a t fs hkept hkeeps hs
  obtain ⟨t', ht, heq⟩ := map_eq_some_iff.mp hs
  cases heq
  cases a with
  | act => exact Logins.wordKept_step hkept hkeeps ht
  | restart =>
    cases ht
    exact Logins.wordKept_restart hkept hkeeps

/-- The answer to a login. -/
def sampleReply : AuthReply := { response := { token := some "t", hasUser := true } }

def sampleAddress : List LoginAction :=
  [.setServerUrl "s", .store 0, .resume 1 {}, .resume 0 {}, .store 0, .resume 0 {}]

/-- A login from its beginning to its commit, where it is the task with this number. -/
def sampleLogin (index : ℕ) : List LoginAction :=
  [.login false, .store index, .resume index {}, .resume index {}, .resume index sampleReply, .resume index {},
    .store index, .resume index {}, .store index, .resume index {}, .store index, .resume index {}]

/-- A login to its end. -/
def sampleSession : List LoginAction := sampleLogin 0 ++ [.resume 0 {}]

/-- A login comes to its end, its session is restored, logged out, and not restored again. -/
def sampleProcesses : List ProcessAction :=
  (sampleAddress ++ sampleSession).map .act ++ [.restart false, .act (.resume 0 {})] ++
    [.act .logout, .act (.store 0), .restart false, .restart true]

theorem logout_durable_sample : processMachine.Every (fun s _ a => s.Durable a) {} [] sampleProcesses := by
  have hcheck : (processMachine.exec (fun s _ a => s.keepsWord a) {} [] sampleProcesses).any
      (fun r => r.1.token.isNone && r.1.store.loggedOut) = true := by
    decide +kernel
  obtain ⟨⟨t, es⟩, hexec, -⟩ := (Option.any_eq_true ..).mp hcheck
  exact logout_durable sampleProcesses (Machine.every_of_exec (fun _ _ _ hkeeps => hkeeps) sampleProcesses hexec)

/-- Two logouts begin, of the user and of a refused token. The first one ends, the user sets the address and
logs in again; then the second one goes on and resets the new session. -/
theorem older_logout_ends_session : ¬∀ as, processMachine.Every (fun s _ a => s.Durable a) {} [] as := by
  intro h
  let logouts : List LoginAction :=
    [.logout, .logout, .store 0, .resume 1 {}, .resume 2 {}, .resume 2 {}, .resume 2 {}, .store 2,
      .resume 2 {}, .store 0, .resume 1 {}, .resume 1 {}]
  let address : List LoginAction :=
    [.setServerUrl "s", .store 2, .resume 3 {}, .resume 2 {}, .store 2, .resume 2 {}]
  let as : List ProcessAction :=
    (sampleAddress ++ sampleSession ++ logouts ++ address ++ sampleLogin 2).map .act
  have hcheck : (processMachine.exec (fun _ _ _ => true) {} [] as).any (fun r =>
      r.1.tasks[1]? = some ⟨.logout 4 .localDetect, false⟩ && r.1.token = some ⟨"t", 6⟩ &&
        (r.1.step (.resume 1 {})).any (·.token = none)) = true := by
    decide +kernel
  obtain ⟨s, es, hpath, hs⟩ := Machine.path_of_check hcheck
  simp only [Bool.and_eq_true, decide_eq_true_eq] at hs
  obtain ⟨⟨htask, htoken⟩, hreset⟩ := hs
  obtain ⟨t, ht, hnone⟩ := (Option.any_eq_true ..).mp hreset
  have hdurable : s.Durable (.act (.resume 1 {})) := (h (as ++ [_])).good hpath
  have hleaves := hdurable.logout (.resume 1 {}) 1 _ 4 .localDetect rfl rfl htask rfl t ht
  have hkept := (hleaves.session _ htoken (by decide)).1
  rw [of_decide_eq_true hnone, htoken] at hkept
  exact nomatch hkept

end LigamentApps.AuthState
