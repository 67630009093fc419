import LigamentApps.Machine.Prune
import LigamentApps.Machine.Trace

/-!
# The native input queue of Windows

`EnqueueNativeInput` and `DesktopInputWorkerLoop` of `input_block.cpp`. The queue keeps the order of the tasks
and every event that releases something (`queue_keeps_ups`). What the worker takes while the secure desktop is
up and the console is not granted it discards, and releases the modifier keys. The worker's timer against the
screen saver is left out. -/

namespace LigamentApps.InputInjector

open List Bool

/-- `NativeInputTask::Kind`. -/
inductive TaskKind
  | unicode
  | vk
  | mouse
  | sas
  deriving DecidableEq

/-- `NativeInputTask`. -/
structure NativeInputTask where
  kind : TaskKind
  ch : UInt16 := 0
  vk : UInt16 := 0
  isDown : Bool := false
  absX : Int32 := 0
  absY : Int32 := 0
  normVx : Int32 := 0
  normVy : Int32 := 0
  mouseFlags : UInt32 := 0
  mouseData : UInt32 := 0
  deriving DecidableEq

namespace NativeInputTask

/-- A move to a place on the virtual desktop, and nothing else: `MOUSEEVENTF_MOVE`, `MOUSEEVENTF_ABSOLUTE` and
`MOUSEEVENTF_VIRTUALDESK`. -/
def isPureMove (t : NativeInputTask) : Bool := t.kind = .mouse && t.mouseFlags = 0x0001 ||| 0x8000 ||| 0x4000

/-- The task releases a key, or a button by `MOUSEEVENTF_LEFTUP`, `RIGHTUP`, `MIDDLEUP` or `XUP`. -/
def isUp (t : NativeInputTask) : Bool :=
  (t.kind = .vk || t.kind = .unicode) && !t.isDown ||
    t.kind = .mouse && t.mouseFlags &&& (0x0004 ||| 0x0010 ||| 0x0040 ||| 0x0100) ≠ 0

theorem isUp_of_isPureMove {t : NativeInputTask} (h : t.isPureMove = true) : t.isUp = false := by
  simp only [isPureMove, and_eq_true, decide_eq_true_eq] at h
  rw [isUp, h.1, h.2]
  rfl

end NativeInputTask

open NativeInputTask

/-! ## The queue -/

/-- The overflow of `EnqueueNativeInput`: moves leave a full queue, and then whatever is no release. -/
def makeRoom (q : List NativeInputTask) : List NativeInputTask :=
  if 512 ≤ q.length then
    let r := (prune isPureMove (fun _ => 1) 511 q.length q).1
    if 512 ≤ r.length then (prune (fun t => !t.isUp) (fun _ => 1) 511 r.length r).1 else r
  else q

/-- `EnqueueNativeInput`. -/
def enqueueNativeInput (q : List NativeInputTask) (task : NativeInputTask) : List NativeInputTask :=
  if task.isPureMove && q.getLast?.any isPureMove then q.dropLast ++ [task] else makeRoom q ++ [task]

section Queue

variable (q : List NativeInputTask) (task : NativeInputTask)

/-- What remains of a queue: releases all, and others than moves all or no move. -/
structure Remains (r q : List NativeInputTask) : Prop where
  sublist : r.Sublist q
  ups : r.filter isUp = q.filter isUp
  others : r.filter (fun t => !t.isPureMove) = q.filter (fun t => !t.isPureMove) ∨ ∀ t ∈ r, t.isPureMove = false

theorem prune_moves : Remains (prune isPureMove (fun _ => 1) 511 q.length q).1 q := by
  have hkept := prune_kept_filter_not isPureMove (fun _ => 1) 511 q.length q
  refine ⟨prune_kept_sublist .., ?_, .inl hkept⟩
  have hups : ∀ xs : List NativeInputTask, (xs.filter fun t => !t.isPureMove).filter isUp = xs.filter isUp := by
    intro xs
    rw [filter_filter]
    refine filter_congr fun t _ => ?_
    cases ht : t.isPureMove with
    | false => simp
    | true => simp [isUp_of_isPureMove ht]
  rw [← hups, hkept, hups]

theorem makeRoom_spec : Remains (makeRoom q) q ∧ ((makeRoom q).length ≤ 511 ∨ ∀ t ∈ makeRoom q, t.isUp = true) := by
  unfold makeRoom
  split
  · have hmoves := prune_moves q
    have hlength := prune_length isPureMove (fun _ => 1) 511 q.length q
    have hfits := prune_fits isPureMove (fun _ => 1) 511 q.length q
    generalize hr : prune isPureMove (fun _ => 1) 511 q.length q = r at *
    dsimp only
    split
    · -- no move is left
      rename_i hfull
      rw [map_const', sum_replicate] at hfits
      have hnone := (hfits.resolve_left (by simp; omega)).2
      have hkept := prune_kept_sublist (fun t : NativeInputTask => !t.isUp) (fun _ => 1) 511 r.1.length r.1
      have hups := prune_kept_filter_not (fun t : NativeInputTask => !t.isUp) (fun _ => 1) 511 r.1.length r.1
      have hlength' := prune_length (fun t : NativeInputTask => !t.isUp) (fun _ => 1) 511 r.1.length r.1
      have hfits' := prune_fits (fun t : NativeInputTask => !t.isUp) (fun _ => 1) 511 r.1.length r.1
      simp only [Bool.not_not] at hups hfits'
      refine ⟨⟨hkept.trans hmoves.sublist, hups.trans hmoves.ups, .inr fun t ht => ?_⟩, ?_⟩
      · have hmem := hkept.subset ht
        rw [hnone] at hmem
        simpa using (mem_filter.mp hmem).2
      · rw [map_const', sum_replicate] at hfits'
        refine hfits'.imp (fun hfew => by simp at hfew; omega) fun hall t ht => ?_
        rw [hall.2] at ht
        exact (mem_filter.mp ht).2
    · exact ⟨hmoves, .inl (by omega)⟩
  · exact ⟨⟨List.Sublist.refl q, rfl, .inl rfl⟩, .inl (by omega)⟩

/-- What becomes of a queue to which a task comes: a move takes the place of a move that is last, and
otherwise the task comes behind what remains, which is all unless the queue is full, and then few or releases
alone. -/
inductive Enqueues : List NativeInputTask → Prop
  | replaces (front : List NativeInputTask) (last : NativeInputTask) : q = front ++ [last] →
      last.isPureMove = true → task.isPureMove = true → Enqueues (front ++ [task])
  | appends (r : List NativeInputTask) : Remains r q → (q.length < 512 → r = q) →
      (r.length ≤ 511 ∨ ∀ t ∈ r, t.isUp = true) → Enqueues (r ++ [task])

theorem enqueues : Enqueues q task (enqueueNativeInput q task) := by
  unfold enqueueNativeInput
  split
  · rename_i hmerge
    obtain ⟨htask, hlast⟩ := (and_eq_true_iff ..).mp hmerge
    obtain ⟨last, hq, hmove⟩ := (Option.any_eq_true ..).mp hlast
    exact .replaces _ last (dropLast_append_getLast? last hq).symm hmove htask
  · obtain ⟨hremains, hroom⟩ := makeRoom_spec q
    exact .appends _ hremains (fun hlt => if_neg (by omega)) hroom

variable {q task} in
/-- Of the others no release is lost, and besides the releases there are at most 512. -/
theorem Enqueues.kept {q' : List NativeInputTask} (h : Enqueues q task q')
    (hfew : (q.filter (!·.isUp)).length ≤ 512) : ∃ r, q' = r ++ [task] ∧ r.Sublist q ∧
      r.filter isUp = q.filter isUp ∧ ((r ++ [task]).filter (!·.isUp)).length ≤ 512 := by
  cases h with
  | replaces front last hq hmove htask =>
    have hup := isUp_of_isPureMove hmove
    subst hq
    refine ⟨front, rfl, sublist_append_left front [last], by simp [hup], ?_⟩
    simpa [hup, isUp_of_isPureMove htask] using hfew
  | appends r hremains _ hroom =>
    refine ⟨r, rfl, hremains.sublist, hremains.ups, ?_⟩
    rw [filter_append, length_append]
    have hone : ([task].filter (!·.isUp)).length ≤ 1 := length_filter_le ..
    rcases hroom with hroom | hups
    · have hle := length_filter_le (!·.isUp) r
      omega
    · have hnone : r.filter (!·.isUp) = [] := filter_eq_nil_iff.mpr fun t ht => by simp [hups t ht]
      simp only [hnone, length_nil]
      omega

end Queue

/-! ## The worker -/

/-- The queue, the worker's task and whether it has passed the gate, and what the gate looks at. -/
structure NativeInput where
  queue : List NativeInputTask := []
  task : Option NativeInputTask := none
  passed : Bool := false
  lastDesktopName : String := ""
  systemConsoleAllowed : Bool := false
  deriving DecidableEq

/-- What happens to tasks, and the releases of `ReleaseModifierKeys`. -/
inductive NativeEvent
  | enqueued (t : NativeInputTask)
  | executed (t : NativeInputTask)
  | discarded (t : NativeInputTask)
  | released (vk : UInt16)
  deriving DecidableEq

/-- `IsSecureDesktop`. -/
def isSecureDesktop (name : String) : Bool := name.toLower = "winlogon" || name.toLower = "screen-saver"

/-- The keys of `ReleaseModifierKeys`. -/
def modVks : List UInt16 := [0xA2, 0xA3, 0x11, 0xA4, 0xA5, 0x12, 0xA0, 0xA1, 0x10, 0x5B, 0x5C]

/-- `ReleaseModifierKeys`; `pressed` is what `GetAsyncKeyState` says. -/
def releaseModifierKeys (pressed : UInt16 → Bool) : List NativeEvent := (modVks.filter pressed).map .released

inductive NativeAction
  | enqueue (t : NativeInputTask)
  /-- `ligament_set_desktop_scope`. -/
  | setDesktopScope (scope : Option String)
  /-- The worker takes a task. -/
  | take
  /-- `AttachCurrentInputDesktop` changes to a desktop. -/
  | attach (name : String)
  /-- The worker looks whether it may inject. -/
  | gate (pressed : UInt16 → Bool)
  /-- The worker executes its task. -/
  | execute

namespace NativeInput

/-- The secure desktop is up, and the console is not granted. -/
def closed (s : NativeInput) : Bool := isSecureDesktop s.lastDesktopName && !s.systemConsoleAllowed

def step (s : NativeInput) : NativeAction → Option (NativeInput × List NativeEvent)
  | .enqueue t => some ({ s with queue := enqueueNativeInput s.queue t }, [.enqueued t])
  | .setDesktopScope scope => some ({ s with systemConsoleAllowed := scope = some "system_console" }, [])
  | .take =>
    match s.task, s.queue with
    | none, t :: queue => some ({ s with task := some t, queue := queue }, [])
    | _, _ => none
  | .attach name =>
    if s.passed then none else some ({ s with lastDesktopName := if name = "" then s.lastDesktopName else name }, [])
  | .gate pressed =>
    match s.task, s.passed with
    | some t, false =>
      if s.closed then some ({ s with task := none }, .discarded t :: releaseModifierKeys pressed)
      else some ({ s with passed := true }, [])
    | _, _ => none
  | .execute =>
    match s.task, s.passed with
    | some t, true =>
      some ({ s with task := none, passed := false },
        [if t.kind = .sas && !s.systemConsoleAllowed then .discarded t else .executed t])
    | _, _ => none

/-- What was enqueued and has not left the worker. -/
def pending (s : NativeInput) : List NativeInputTask := s.task.toList ++ s.queue

end NativeInput

/-- The queue and its worker as a machine. -/
def nativeInput : Machine NativeInput NativeAction NativeEvent := ⟨NativeInput.step⟩

/-- The tasks that were enqueued. -/
def enqueuedTasks (es : List NativeEvent) : List NativeInputTask :=
  es.filterMap fun | .enqueued t => some t | _ => none

/-- The tasks that were executed. -/
def executedTasks (es : List NativeEvent) : List NativeInputTask :=
  es.filterMap fun | .executed t => some t | _ => none

/-- The tasks that have left the worker, executed or discarded. -/
def finishedTasks (es : List NativeEvent) : List NativeInputTask :=
  es.filterMap fun | .executed t | .discarded t => some t | _ => none

/-- The tasks are executed in order, and no release is lost on the way to the worker. -/
structure InOrder (s : NativeInput) (es : List NativeEvent) : Prop where
  order : (executedTasks es ++ s.pending).Sublist (enqueuedTasks es)
  ups : (enqueuedTasks es).filter isUp = (finishedTasks es ++ s.pending).filter isUp
  few : (s.queue.filter (!·.isUp)).length ≤ 512
  last : s.queue = [] ∨ s.queue.getLast? = (enqueuedTasks es).getLast?

namespace InOrder

variable {s t : NativeInput} {es fs : List NativeEvent}

/-- The worker takes tasks from the front. -/
theorem of_worker (h : InOrder s es) (henqueued : enqueuedTasks fs = [])
    (hexecuted : (executedTasks fs ++ t.pending).Sublist s.pending)
    (hfinished : finishedTasks fs ++ t.pending = s.pending)
    (hqueue : t.queue = s.queue ∨ ∃ x, s.queue = x :: t.queue) : InOrder t (es ++ fs) := by
  have hsame : enqueuedTasks (es ++ fs) = enqueuedTasks es := by
    rw [enqueuedTasks, filterMap_append, ← enqueuedTasks, ← enqueuedTasks, henqueued, append_nil]
  constructor
  case order =>
    rw [hsame, executedTasks, filterMap_append, append_assoc]
    exact (hexecuted.append_left _).trans h.order
  case ups =>
    rw [hsame, h.ups, ← hfinished, finishedTasks, finishedTasks, finishedTasks, filterMap_append, append_assoc]
  case few =>
    rcases hqueue with hq | ⟨x, hq⟩
    · rw [hq]
      exact h.few
    · have hfew := h.few
      rw [hq] at hfew
      exact ((sublist_cons_self x t.queue).filter _).length_le.trans hfew
  case last =>
    rw [hsame]
    rcases hqueue with hq | ⟨x, hq⟩
    · rw [hq]
      exact h.last
    · cases hrest : t.queue with
      | nil => exact .inl rfl
      | cons y rest =>
        have hlast := h.last.resolve_left (by simp [hq])
        rw [hq, hrest, getLast?_cons_cons] at hlast
        exact .inr hlast

theorem enqueue (h : InOrder s es) (x : NativeInputTask) :
    InOrder { s with queue := enqueueNativeInput s.queue x } (es ++ [.enqueued x]) := by
  obtain ⟨r, hqueue, hsub, hups, hfew⟩ := (enqueues s.queue x).kept h.few
  have henqueued : enqueuedTasks (es ++ [.enqueued x]) = enqueuedTasks es ++ [x] := by simp [enqueuedTasks]
  constructor
  case order =>
    rw [henqueued, NativeInput.pending, hqueue]
    have hrest : (executedTasks es ++ (s.task.toList ++ r)).Sublist (enqueuedTasks es) :=
      ((hsub.append_left _).append_left _).trans h.order
    simpa [executedTasks] using hrest.append_right [x]
  case ups =>
    rw [henqueued, filter_append, h.ups, NativeInput.pending, NativeInput.pending, hqueue]
    simp [finishedTasks, hups]
  case few =>
    rw [hqueue]
    exact hfew
  case last =>
    rw [henqueued, hqueue]
    exact .inr (by simp)

theorem step (h : InOrder s es) {a : NativeAction} (hstep : s.step a = some (t, fs)) : InOrder t (es ++ fs) := by
  cases a with
  | enqueue x =>
    cases hstep
    exact h.enqueue x
  | setDesktopScope =>
    cases hstep
    exact h.of_worker rfl (List.Sublist.refl _) rfl (.inl rfl)
  | take =>
    simp only [NativeInput.step] at hstep
    split at hstep
    · rename_i htask hqueue
      cases hstep
      refine h.of_worker rfl ?_ ?_ (.inr ⟨_, hqueue⟩)
      · simp [executedTasks, NativeInput.pending, htask, hqueue]
      · simp [finishedTasks, NativeInput.pending, htask, hqueue]
    · simp at hstep
  | attach =>
    obtain ⟨-, heq⟩ := Option.ite_none_left_eq_some.mp hstep
    cases heq
    exact h.of_worker rfl (List.Sublist.refl _) rfl (.inl rfl)
  | gate pressed =>
    simp only [NativeInput.step] at hstep
    split at hstep
    · rename_i htask _
      split at hstep
      · cases hstep
        refine h.of_worker ?_ ?_ ?_ (.inl rfl)
        · simp [enqueuedTasks, releaseModifierKeys]
        · simp [executedTasks, releaseModifierKeys, NativeInput.pending, htask]
        · simp [finishedTasks, releaseModifierKeys, NativeInput.pending, htask]
      · cases hstep
        exact h.of_worker rfl (List.Sublist.refl _) rfl (.inl rfl)
    · simp at hstep
  | execute =>
    simp only [NativeInput.step] at hstep
    split at hstep
    · rename_i htask _
      cases hstep
      refine h.of_worker ?_ ?_ ?_ (.inl rfl) <;> split <;>
        simp [enqueuedTasks, executedTasks, finishedTasks, NativeInput.pending, htask]
    · simp at hstep

end InOrder

/-- A release is discarded at the closed gate only, where the modifier keys are released. -/
def DiscardsAtGate (s : NativeInput) (a : NativeAction) (fs : List NativeEvent) : Prop :=
  ∀ x, .discarded x ∈ fs → x.isUp = true →
    s.closed = true ∧ ∃ pressed, a = .gate pressed ∧ ∀ vk ∈ modVks, pressed vk = true → .released vk ∈ fs

theorem discardsAtGate {s t : NativeInput} {a : NativeAction} {fs : List NativeEvent}
    (hstep : s.step a = some (t, fs)) : DiscardsAtGate s a fs := by
  intro x hx hup
  cases a with
  | gate pressed =>
    simp only [NativeInput.step] at hstep
    split at hstep
    · split at hstep
      · rename_i hclosed
        cases hstep
        refine ⟨hclosed, pressed, rfl, fun vk hvk hdown => mem_cons_of_mem _ ?_⟩
        exact mem_map_of_mem (mem_filter.mpr ⟨hvk, hdown⟩)
      · cases hstep
        simp at hx
    · simp at hstep
  | execute =>
    simp only [NativeInput.step] at hstep
    split at hstep
    · cases hstep
      split at hx
      · rename_i hsas
        obtain rfl : x = _ := by simpa using hx
        simp only [and_eq_true, decide_eq_true_eq] at hsas
        simp [isUp, hsas.1] at hup
      · simp at hx
    · simp at hstep
  | enqueue | setDesktopScope =>
    cases hstep
    simp at hx
  | take =>
    simp only [NativeInput.step] at hstep
    split at hstep
    · cases hstep
      simp at hx
    · simp at hstep
  | attach =>
    obtain ⟨-, heq⟩ := Option.ite_none_left_eq_some.mp hstep
    cases heq
    simp at hx

/-- The key `A`. -/
def keyA (isDown : Bool) : NativeInputTask := { kind := .vk, vk := 0x41, isDown := isDown }

/-- A key goes down, and is released after the secure desktop has come up, while the left shift key is
down. -/
def keyAtGate : List NativeEvent :=
  [.enqueued (keyA true), .executed (keyA true), .enqueued (keyA false), .discarded (keyA false), .released 0xA0]

theorem keyAtGate_reach :
    nativeInput.Reach (fun _ _ _ => True) {} { lastDesktopName := "Winlogon" } keyAtGate := by
  have hexec : nativeInput.exec (fun _ _ _ => true) {} [] [.enqueue (keyA true), .take, .attach "Default",
      .gate fun _ => false, .execute, .enqueue (keyA false), .take, .attach "Winlogon", .gate (· = 0xA0)] =
        some ({ lastDesktopName := "Winlogon" }, keyAtGate) := by
    decide +kernel
  exact Machine.reach_of_exec (fun _ _ _ _ => trivial) hexec

end LigamentApps.InputInjector
