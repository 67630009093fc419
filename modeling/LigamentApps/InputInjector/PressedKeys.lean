import LigamentApps.InputInjector.Injection
import Mathlib.Data.List.Induction

/-!
# Keys that stay pressed

What `releaseAllPressed` releases is what the sets hold. A character that Windows is given as such and a key
of `xdotool` are in no set, and a button leaves its set before its release is computed. -/

namespace LigamentApps.InputInjector

open List

open LinkHost (Platform codeUnits)

variable {es : List InputEvent} {t : Injector} {created : ℕ → Bool} {p k : Pressable} {e : InputEvent}

/-! ## What is down -/

/-- What is down after some events. -/
def held (es : List InputEvent) : List Pressable :=
  es.foldl (fun ks e => match e with
    | .down k => k :: ks
    | .up k => ks.filter (· ≠ k)
    | .threw => ks) []

/-- All that was pressed was released later. -/
def AllUp (es : List InputEvent) : Prop := ∀ es₁ k es₂, es = es₁ ++ .down k :: es₂ → .up k ∈ es₂

theorem held_snoc (es : List InputEvent) (e : InputEvent) : held (es ++ [e]) = match e with
      | .down k => k :: held es
      | .up k => (held es).filter (· ≠ k)
      | .threw => held es := by
  unfold held
  rw [foldl_append]
  cases e <;> rfl

theorem snoc_eq_iff {es₁ es₂ : List InputEvent} {x : InputEvent} : es ++ [e] = es₁ ++ x :: es₂ ↔
      (es₂ = [] ∧ es = es₁ ∧ e = x) ∨ ∃ rest, es₂ = rest ++ [e] ∧ es = es₁ ++ x :: rest := by
  constructor
  · intro h
    rcases eq_nil_or_concat es₂ with rfl | ⟨rest, last, rfl⟩
    · obtain ⟨rfl, hlast⟩ := append_inj' h rfl
      exact .inl ⟨rfl, rfl, (List.cons.inj hlast).1⟩
    · have hsplit : es ++ [e] = (es₁ ++ x :: rest) ++ [last] := by simpa using h
      obtain ⟨rfl, hlast⟩ := append_inj' hsplit rfl
      exact .inr ⟨rest, by rw [(List.cons.inj hlast).1, concat_eq_append], rfl⟩
  · rintro (⟨rfl, rfl, rfl⟩ | ⟨rest, rfl, rfl⟩)
    · rfl
    · simp

theorem mem_held_iff (es : List InputEvent) (k : Pressable) :
    k ∈ held es ↔ ∃ es₁ es₂, es = es₁ ++ .down k :: es₂ ∧ .up k ∉ es₂ := by
  induction es using List.reverseRecOn with
  | nil => exact iff_of_false not_mem_nil fun ⟨es₁, es₂, h, _⟩ => absurd h (by simp)
  | append_singleton es e ih =>
    -- The press of the key is the last event, or it was before it and the last event is not its release.
    have hsplit : (∃ es₁ es₂, es ++ [e] = es₁ ++ .down k :: es₂ ∧ .up k ∉ es₂) ↔
        e = .down k ∨ (k ∈ held es ∧ e ≠ .up k) := by
      rw [ih]
      constructor
      · rintro ⟨es₁, es₂, h, hnone⟩
        rcases snoc_eq_iff.mp h with ⟨-, -, rfl⟩ | ⟨rest, rfl, rfl⟩
        · exact .inl rfl
        · rw [mem_append, not_or, mem_singleton] at hnone
          exact .inr ⟨⟨es₁, rest, rfl, hnone.1⟩, fun h => hnone.2 h.symm⟩
      · rintro (rfl | ⟨⟨es₁, rest, rfl, hnone⟩, hlast⟩)
        · exact ⟨es, [], rfl, not_mem_nil⟩
        · refine ⟨es₁, rest ++ [e], by simp, ?_⟩
          rw [mem_append, not_or, mem_singleton]
          exact ⟨hnone, fun h => hlast h.symm⟩
    rw [hsplit, held_snoc]
    cases e with
    | down =>
      simp only [InputEvent.down.injEq, ne_eq, reduceCtorEq, not_false_eq_true, and_true, mem_cons]
      exact or_congr_left eq_comm
    | up =>
      simp only [InputEvent.up.injEq, ne_eq, reduceCtorEq, false_or, mem_filter, decide_eq_true_eq]
      exact and_congr_right fun _ => not_congr eq_comm
    | threw => simp

theorem allUp_iff : AllUp es ↔ ∀ k, k ∉ held es := by
  constructor
  · intro h k hk
    obtain ⟨es₁, es₂, hsplit, hnone⟩ := (mem_held_iff es k).mp hk
    exact hnone (h es₁ k es₂ hsplit)
  · intro h es₁ k es₂ hsplit
    by_contra hnone
    exact h k ((mem_held_iff es k).mpr ⟨es₁, es₂, hsplit, hnone⟩)

theorem mem_held_append {fs : List InputEvent} (h : ∀ k, .down k ∉ fs) (k : Pressable) :
    k ∈ held (es ++ fs) ↔ k ∈ held es ∧ .up k ∉ fs := by
  induction fs using List.reverseRecOn with
  | nil => simp
  | append_singleton fs e ih =>
    have hfs : ∀ k, .down k ∉ fs := fun k hk => h k (mem_append_left _ hk)
    have he : ∀ k, e ≠ .down k := fun k hk => h k (hk ▸ mem_append_right _ (mem_singleton_self e))
    rw [← append_assoc, held_snoc]
    cases e with
    | down k' => exact absurd rfl (he k')
    | up =>
      simp only [mem_filter, ih hfs, mem_append, mem_singleton, InputEvent.up.injEq, not_or,
        decide_eq_true_eq, and_assoc]
    | threw => simp [ih hfs]

/-! ## What is released -/

/-- What the sets hold that the platform can release, in the order in which it does. -/
def Desktop.ups (d : Desktop) (s : Injector) : List Pressable :=
  (if d.canClick then s.pressedMouseButtons.map fun button => .button (buttonOf button) else []) ++
    match d.platform with
    | .windows => if d.nativeSendVk || d.winKeybdEvent then s.pressedWinKeyCodes.map d.vkOf else []
    | .macOS => if d.canPressMac then s.pressedMacKeyCodes.map fun code => .macKey (code % 65536) else []
    | _ => []

/-- The place of the mouse can be computed. -/
def Desktop.hasPlace (d : Desktop) (s : Injector) : Prop :=
  d.hasMouse = true → s.lastScreenRect.all ScreenRect.isUsable = true

/-- `releaseAllPressed` returns, all that was pressed has been released, and the sets are empty. -/
def Released (casing : Casing) (d : Desktop) (s : Injector) (es : List InputEvent) (a : InjectorAction) : Prop :=
  ∀ created, a = .releaseAllPressed created → ∀ t fs, step casing d s a = some (t, fs) →
    .threw ∉ fs ∧ AllUp (es ++ fs) ∧
      t.pressedMouseButtons = [] ∧ t.pressedWinKeyCodes = [] ∧ t.pressedMacKeyCodes = []

/-- When `releaseAllPressed` is called no button is in the set, or the last place of the mouse can be
computed; and what is down is what the sets hold, and macOS creates the events that release it. -/
def Releasable (d : Desktop) (s : Injector) (es : List InputEvent) (a : InjectorAction) : Prop :=
  ∀ created, a = .releaseAllPressed created →
    (s.pressedMouseButtons = [] ∨ d.hasPlace s) ∧
      ∀ k ∈ held es, ∃ i, (d.ups s)[i]? = some k ∧ (d.platform = .macOS → created i = true)

/-- The sets of other platforms stay empty. -/
structure OwnSets (d : Desktop) (s : Injector) : Prop where
  web : d.web = true → s.pressedMouseButtons = []
  windows : d.web = true ∨ d.platform ≠ .windows → s.pressedWinKeyCodes = []
  macOS : d.web = true ∨ d.platform ≠ .macOS → s.pressedMacKeyCodes = []

variable {casing : Casing} {d : Desktop} {s : Injector}

theorem mouseAction_of_place (hweb : d.web = false) {rect : Option ScreenRect}
    (hplace : d.hasMouse = true → rect.all ScreenRect.isUsable = true) (action : String) (button : ℤ) :
    d.mouseAction s action button rect = (s.noted action button rect, d.mouseEvents action button) := by
  unfold Desktop.mouseAction
  rw [hweb, if_neg Bool.false_ne_true]
  split
  · rename_i hmouse
    rw [if_pos (hplace hmouse)]
  · rename_i hmouse
    have hother : d.platform = .other := by simpa [Desktop.hasMouse] using hmouse
    have hnone : d.canClick = false := by simp [Desktop.canClick, hother]
    simp [Desktop.mouseEvents, hnone]

theorem mouseAction_up (hweb : d.web = false) (hplace : d.hasPlace s) (button : ℤ) :
    d.mouseAction s "up" button s.lastScreenRect =
      ({ s with pressedMouseButtons := withoutElement s.pressedMouseButtons button },
        if d.canClick then [.up (.button (buttonOf button))] else []) := by
  have hup : ("up" : String) ≠ "down" := by decide
  rw [mouseAction_of_place hweb hplace]
  simp only [Injector.noted, Desktop.mouseEvents, hup, if_false, if_true]

theorem mouseAction_up_threw (hweb : d.web = false) (hplace : ¬d.hasPlace s) (button : ℤ) :
    (d.mouseAction s "up" button s.lastScreenRect).2 = [.threw] := by
  unfold Desktop.hasPlace at hplace
  push Not at hplace
  unfold Desktop.mouseAction
  simp [hweb, hplace.1, hplace.2]

theorem releaseButtons_of_place (hweb : d.web = false) : ∀ (buttons : List ℤ) {s : Injector}, d.hasPlace s →
      (d.releaseButtons s buttons).2 = (if d.canClick then buttons.map
        fun b => .up (.button (buttonOf b)) else []) ∧
        (d.releaseButtons s buttons).1 =
          { s with pressedMouseButtons := (d.releaseButtons s buttons).1.pressedMouseButtons }
  | [], s, _ => ⟨by cases d.canClick <;> rfl, rfl⟩
  | button :: buttons, s, hplace => by
    have hquiet : InputEvent.threw ∉ (d.mouseAction s "up" button s.lastScreenRect).2 := by
      rw [mouseAction_up hweb hplace]
      cases d.canClick <;> simp
    have hrest := releaseButtons_of_place hweb buttons
      (s := { s with pressedMouseButtons := withoutElement s.pressedMouseButtons button }) hplace
    simp only [Desktop.releaseButtons, if_neg hquiet]
    rw [mouseAction_up hweb hplace]
    refine ⟨?_, ?_⟩
    · rw [hrest.1]
      cases d.canClick <;> rfl
    · rw [hrest.2]

theorem releaseButtons_returns (hweb : d.web = false) (h : s.pressedMouseButtons = [] ∨ d.hasPlace s) :
    (d.releaseButtons s s.pressedMouseButtons).2 =
        (if d.canClick then s.pressedMouseButtons.map fun b => .up (.button (buttonOf b)) else []) ∧
      (d.releaseButtons s s.pressedMouseButtons).1 =
        { s with pressedMouseButtons := (d.releaseButtons s s.pressedMouseButtons).1.pressedMouseButtons } := by
  rcases h with hnone | hplace
  · rw [hnone]
    exact ⟨by cases d.canClick <;> rfl, rfl⟩
  · exact releaseButtons_of_place hweb s.pressedMouseButtons hplace

theorem flatMap_vkEvent (codes : List ℕ) : codes.flatMap (d.vkEvent false) =
      if d.nativeSendVk || d.winKeybdEvent then codes.map fun code => .up (d.vkOf code) else [] := by
  unfold Desktop.vkEvent
  split
  · simp only [Bool.false_eq_true, if_false]
    exact map_eq_flatMap.symm
  · exact flatMap_eq_nil_iff.mpr fun _ _ => rfl

theorem flatMap_macEvent (codes : List ℕ) : codes.flatMap (d.macEvent false) =
      if d.canPressMac then codes.map fun code => .up (.macKey (code % 65536)) else [] := by
  unfold Desktop.macEvent
  split
  · simp only [Bool.false_eq_true, if_false]
    exact map_eq_flatMap.symm
  · exact flatMap_eq_nil_iff.mpr fun _ _ => rfl

theorem releaseAllPressed_returns (hown : OwnSets d s) (h : s.pressedMouseButtons = [] ∨ d.hasPlace s) :
    (d.releaseAllPressed s).2 = (d.ups s).map .up ∧ (d.releaseAllPressed s).1.pressedMouseButtons = [] ∧
      (d.releaseAllPressed s).1.pressedWinKeyCodes = [] ∧ (d.releaseAllPressed s).1.pressedMacKeyCodes = [] := by
  unfold Desktop.releaseAllPressed
  cases hweb : d.web with
  | true =>
    have hbuttons := hown.web hweb
    have hwin := hown.windows (.inl hweb)
    have hmac := hown.macOS (.inl hweb)
    refine ⟨?_, hbuttons, hwin, hmac⟩
    unfold Desktop.ups
    rw [hbuttons, hwin, hmac]
    cases d.canClick <;> cases d.platform <;> simp
  | false =>
    obtain ⟨hevents, hstate⟩ := releaseButtons_returns hweb h
    have hquiet : InputEvent.threw ∉ (d.releaseButtons s s.pressedMouseButtons).2 := by
      rw [hevents]
      cases d.canClick <;> simp
    have hbuttons :
        (if d.canClick then s.pressedMouseButtons.map fun b => InputEvent.up (.button (buttonOf b)) else []) =
          (if d.canClick then s.pressedMouseButtons.map
            fun b => Pressable.button (buttonOf b) else []).map .up := by
      cases d.canClick <;> simp
    simp only [Bool.false_eq_true, if_false, if_neg hquiet]
    rw [hstate, hevents, hbuttons]
    unfold Desktop.ups
    cases hplatform : d.platform with
    | windows =>
      have hmac : s.pressedMacKeyCodes = [] := hown.macOS (.inr (by rw [hplatform]; decide))
      refine ⟨?_, rfl, rfl, hmac⟩
      simp only [map_append, flatMap_vkEvent]
      cases d.nativeSendVk || d.winKeybdEvent <;> simp
    | macOS =>
      have hwin : s.pressedWinKeyCodes = [] := hown.windows (.inr (by rw [hplatform]; decide))
      refine ⟨?_, rfl, hwin, rfl⟩
      simp only [map_append, flatMap_macEvent]
      cases d.canPressMac <;> simp
    | linux | other =>
      have hwin : s.pressedWinKeyCodes = [] := hown.windows (.inr (by rw [hplatform]; decide))
      have hmac : s.pressedMacKeyCodes = [] := hown.macOS (.inr (by rw [hplatform]; decide))
      exact ⟨by simp, rfl, hwin, hmac⟩

theorem releaseAllPressed_rect (hplace : d.hasPlace s) :
    (d.releaseAllPressed s).1.lastScreenRect = s.lastScreenRect := by
  unfold Desktop.releaseAllPressed
  simp only
  split
  · rfl
  · rename_i hweb
    have hstate := (releaseButtons_returns (Bool.not_eq_true _ ▸ hweb) (.inr hplace)).2
    have hrect : (d.releaseButtons s s.pressedMouseButtons).1.lastScreenRect = s.lastScreenRect := by rw [hstate]
    split
    · exact hrect
    · cases d.platform <;> exact hrect

theorem releaseAllPressed_threw (hown : OwnSets d s) (h : ¬(s.pressedMouseButtons = [] ∨ d.hasPlace s)) :
    .threw ∈ (d.releaseAllPressed s).2 := by
  obtain ⟨hsome, hplace⟩ := not_or.mp h
  have hweb : d.web = false := by
    by_contra hweb
    exact hsome (hown.web (Bool.not_eq_false _ ▸ hweb))
  cases hbuttons : s.pressedMouseButtons with
  | nil => exact absurd hbuttons hsome
  | cons button =>
    have hthrew := mouseAction_up_threw hweb hplace button
    simp only [Desktop.releaseAllPressed, Desktop.releaseButtons, hweb, hbuttons, hthrew, mem_singleton,
      if_true, Bool.false_eq_true, if_false]

/-! ## What macOS creates -/

theorem mem_posted : e ∈ d.posted created es ↔
      ∃ i, es[i]? = some e ∧ (d.platform = .macOS → e = .threw ∨ created i = true) := by
  unfold Desktop.posted
  split_ifs with hmac
  · simp only [mem_map, mem_filter, mem_zipIdx_iff_getElem?, Bool.or_eq_true, decide_eq_true_eq,
      Prod.exists, hmac, forall_const]
    constructor
    · rintro ⟨e', i, ⟨hi, hposted⟩, rfl⟩
      exact ⟨i, hi, hposted⟩
    · rintro ⟨i, hi, hposted⟩
      exact ⟨e, i, ⟨hi, hposted⟩, rfl⟩
  · simp only [hmac, false_implies, and_true]
    exact mem_iff_getElem?

theorem mem_of_mem_posted (h : e ∈ d.posted created es) : e ∈ es := by
  obtain ⟨i, hi, -⟩ := mem_posted.mp h
  exact mem_of_getElem? hi

/-- `releaseAllPressed` releases all exactly when the place of the mouse can be computed, and what is down is
in the sets. -/
theorem released_iff (hown : OwnSets d s) (a : InjectorAction) : Released casing d s es a ↔
    Releasable d s es a := by
  refine forall_congr' fun created => forall_congr' fun ha => ?_
  subst ha
  have hstep : step casing d s (.releaseAllPressed created) =
      some ((d.releaseAllPressed s).1, d.posted created (d.releaseAllPressed s).2) := rfl
  by_cases hplace : s.pressedMouseButtons = [] ∨ d.hasPlace s
  · obtain ⟨hevents, hbuttons, hwin, hmac⟩ := releaseAllPressed_returns hown hplace
    have hups : ∀ e ∈ d.posted created (d.releaseAllPressed s).2, ∃ k, e = .up k := by
      intro e he
      have hmem := mem_of_mem_posted he
      rw [hevents] at hmem
      obtain ⟨k, -, rfl⟩ := mem_map.mp hmem
      exact ⟨k, rfl⟩
    have hreturns : .threw ∉ d.posted created (d.releaseAllPressed s).2 := fun hthrew => by
      obtain ⟨k, hk⟩ := hups _ hthrew
      exact InputEvent.noConfusion hk
    have hpresses : ∀ k, .down k ∉ d.posted created (d.releaseAllPressed s).2 := fun k hdown => by
      obtain ⟨k', hk'⟩ := hups _ hdown
      exact InputEvent.noConfusion hk'
    have hreleases : ∀ k, .up k ∈ d.posted created (d.releaseAllPressed s).2 ↔
        ∃ i, (d.ups s)[i]? = some k ∧ (d.platform = .macOS → created i = true) := by
      intro k
      rw [mem_posted, hevents]
      simp only [getElem?_map, Option.map_eq_some_iff, InputEvent.up.injEq, exists_eq_right, reduceCtorEq,
        false_or]
    have hall : AllUp (es ++ d.posted created (d.releaseAllPressed s).2) ↔
        ∀ k ∈ held es, ∃ i, (d.ups s)[i]? = some k ∧ (d.platform = .macOS → created i = true) := by
      rw [allUp_iff]
      refine forall_congr' fun k => ?_
      rw [mem_held_append hpresses, hreleases, not_and_not_right]
    constructor
    · exact fun h => ⟨hplace, hall.mp (h _ _ hstep).2.1⟩
    · intro h t fs hs
      obtain ⟨rfl, rfl⟩ := Prod.mk.inj (Option.some.inj (hstep.symm.trans hs))
      exact ⟨hreturns, hall.mpr h.2, hbuttons, hwin, hmac⟩
  · refine iff_of_false (fun h => ?_) fun h => hplace h.1
    obtain ⟨i, hi⟩ := mem_iff_getElem?.mp (releaseAllPressed_threw hown hplace)
    have hthrew : .threw ∈ d.posted created (d.releaseAllPressed s).2 := mem_posted.mpr ⟨i, hi, fun _ => .inl rfl⟩
    exact (h _ _ hstep).1 hthrew

theorem mouseAction_codes (action : String) (button : ℤ) (rect : Option ScreenRect) :
    (d.mouseAction s action button rect).1.pressedWinKeyCodes = s.pressedWinKeyCodes ∧
      (d.mouseAction s action button rect).1.pressedMacKeyCodes = s.pressedMacKeyCodes := by
  unfold Desktop.mouseAction
  split_ifs <;> exact ⟨rfl, rfl⟩

theorem releaseButtons_codes : ∀ (buttons : List ℤ) (s : Injector),
    (d.releaseButtons s buttons).1.pressedWinKeyCodes = s.pressedWinKeyCodes ∧
      (d.releaseButtons s buttons).1.pressedMacKeyCodes = s.pressedMacKeyCodes
  | [], _ => ⟨rfl, rfl⟩
  | button :: buttons, s => by
    have hfirst := mouseAction_codes (d := d) (s := s) "up" button s.lastScreenRect
    unfold Desktop.releaseButtons
    simp only
    split_ifs
    · exact hfirst
    · have hrest := releaseButtons_codes buttons (d.mouseAction s "up" button s.lastScreenRect).1
      exact ⟨hrest.1.trans hfirst.1, hrest.2.trans hfirst.2⟩

theorem OwnSets.mouseAction (hown : OwnSets d s) (action : String) (button : ℤ) (rect : Option ScreenRect) :
    OwnSets d (d.mouseAction s action button rect).1 := by
  obtain ⟨hwin, hmac⟩ := mouseAction_codes (s := s) action button rect
  refine ⟨fun hweb => ?_, fun hother => hwin.trans (hown.windows hother),
    fun hother => hmac.trans (hown.macOS hother)⟩
  unfold Desktop.mouseAction
  rw [if_pos hweb]
  exact hown.web hweb

theorem macKeyAction_cases (casing : Casing) (d : Desktop) (s : Injector) (isDown : Bool) (key : List ℕ)
    (keyCode : Option ℤ) :
    d.macKeyAction casing s isDown key keyCode = (s, []) ∨
      ∃ code, d.macKeyAction casing s isDown key keyCode =
        ({ s with
            pressedMacKeyCodes :=
              if isDown then withElement s.pressedMacKeyCodes code else withoutElement s.pressedMacKeyCodes code },
          d.macEvent isDown code) := by
  unfold Desktop.macKeyAction
  split
  · rename_i code _
    split
    · exact .inr ⟨code, rfl⟩
    · exact .inl rfl
  · exact .inl rfl

theorem winKeyAction_cases (casing : Casing) (d : Desktop) (s : Injector) (isDown : Bool) (key : List ℕ)
    (keyCode : Option ℤ) (char : Option (List ℕ)) :
    d.winKeyAction casing s isDown key keyCode char = (s, []) ∨
      (∃ unit, d.winKeyAction casing s isDown key keyCode char =
        (s, [if isDown then .down (.unicode unit) else .up (.unicode unit)])) ∨
      ∃ code, d.winKeyAction casing s isDown key keyCode char =
        ({ s with
            pressedWinKeyCodes :=
              if isDown then withElement s.pressedWinKeyCodes code else withoutElement s.pressedWinKeyCodes code },
          d.vkEvent isDown code) := by
  unfold Desktop.winKeyAction
  split
  · rename_i text _
    exact .inr (.inl ⟨text.headD 0, rfl⟩)
  · simp only
    split
    · exact .inl rfl
    · exact .inr (.inr ⟨_, rfl⟩)

theorem OwnSets.keyAction (casing : Casing) (hown : OwnSets d s) (action : String) (key : List ℕ)
    (keyCode : Option ℤ) (char : Option (List ℕ)) : OwnSets d (d.keyAction casing s action key keyCode char).1 := by
  unfold Desktop.keyAction
  simp only
  split
  · exact hown
  · rename_i hweb
    cases hplatform : d.platform with
    | macOS =>
      rcases macKeyAction_cases casing d s (action = "down") key keyCode with h | ⟨code, h⟩
      · simp only [h, hown]
      · simp only [h]
        exact ⟨hown.web, hown.windows, fun hother => absurd hplatform (hother.resolve_left hweb)⟩
    | windows =>
      rcases winKeyAction_cases casing d s (action = "down") key keyCode char with
        h | ⟨unit, h⟩ | ⟨code, h⟩
      · simp only [h, hown]
      · simp only [h, hown]
      · simp only [h]
        exact ⟨hown.web, fun hother => absurd hplatform (hother.resolve_left hweb), hown.macOS⟩
    | linux | other => exact hown

theorem OwnSets.releaseAllPressed (hown : OwnSets d s) : OwnSets d (d.releaseAllPressed s).1 := by
  obtain ⟨hwin, hmac⟩ := releaseButtons_codes (d := d) s.pressedMouseButtons s
  unfold Desktop.releaseAllPressed
  simp only
  split_ifs with hweb
  · exact hown
  · exact ⟨fun h => absurd h hweb, fun h => hwin.trans (hown.windows h), fun h => hmac.trans (hown.macOS h)⟩
  · cases hplatform : d.platform with
    | windows =>
      exact ⟨fun h => absurd h hweb, fun _ => rfl, fun h => hmac.trans (hown.macOS h)⟩
    | macOS =>
      exact ⟨fun h => absurd h hweb, fun h => hwin.trans (hown.windows h), fun _ => rfl⟩
    | linux | other =>
      exact ⟨fun _ => rfl, fun h => hwin.trans (hown.windows h), fun h => hmac.trans (hown.macOS h)⟩

theorem OwnSets.step (hown : OwnSets d s) {a : InjectorAction} {t : Injector} {fs : List InputEvent}
    (h : step casing d s a = some (t, fs)) : OwnSets d t := by
  cases a with
  | mouseAction action button rect =>
    exact prop_of_step (OwnSets d) h (hown.mouseAction action button rect)
  | keyAction action key keyCode char =>
    exact prop_of_step (OwnSets d) h (hown.keyAction casing action key keyCode char)
  | releaseAllPressed => exact prop_of_step (OwnSets d) h hown.releaseAllPressed

theorem ownSets_start : OwnSets d {} := ⟨fun _ => rfl, fun _ => rfl, fun _ => rfl⟩

/-! ## What the sets hold -/

/-- It is pressed without a set: a character on Windows, or a key of `xdotool`. -/
def Pressable.isTyped : Pressable → Bool
  | .unicode _ | .named _ => true
  | _ => false

/-- The rectangles have an area, macOS creates all events, and when `releaseAllPressed` is called nothing that
was pressed without a set is down. -/
def Careful (d : Desktop) (es : List InputEvent) : InjectorAction → Prop
  | .mouseAction _ _ rect created => rect.all ScreenRect.isUsable = true ∧
    (d.platform = .macOS → ∀ i, created i = true)
  | .keyAction _ _ _ _ created => d.platform = .macOS → ∀ i, created i = true
  | .releaseAllPressed created =>
    (d.platform = .macOS → ∀ i, created i = true) ∧ ∀ k ∈ held es, k.isTyped = false

/-- The invariant of careful runs: what is down is in the sets, unless it was pressed without one. -/
structure Tracked (d : Desktop) (s : Injector) (es : List InputEvent) : Prop where
  own : OwnSets d s
  place : s.lastScreenRect.all ScreenRect.isUsable = true
  kept : ∀ k ∈ held es, k ∈ d.ups s ∨ k.isTyped = true

theorem mem_ups : k ∈ d.ups s ↔
      (d.canClick = true ∧ ∃ n ∈ s.pressedMouseButtons, .button (buttonOf n) = k) ∨
      (d.platform = .windows ∧ (d.nativeSendVk || d.winKeybdEvent) = true ∧
        ∃ c ∈ s.pressedWinKeyCodes, d.vkOf c = k) ∨
      (d.platform = .macOS ∧ d.canPressMac = true ∧ ∃ c ∈ s.pressedMacKeyCodes, .macKey (c % 65536) = k) := by
  unfold Desktop.ups
  rw [mem_append]
  have hbuttons : k ∈ (if d.canClick then s.pressedMouseButtons.map
    fun n => Pressable.button (buttonOf n) else []) ↔
      d.canClick = true ∧ ∃ n ∈ s.pressedMouseButtons, .button (buttonOf n) = k := by
    cases d.canClick <;> simp
  rw [hbuttons]
  refine or_congr_right ?_
  cases d.platform with
  | windows => cases d.nativeSendVk || d.winKeybdEvent <;> simp
  | macOS => cases d.canPressMac <;> simp
  | _ => simp

theorem mem_withElement {α : Type} [DecidableEq α] {l : List α} {x y : α} : y ∈ withElement l x ↔
    y ∈ l ∨ y = x := by
  unfold withElement
  split_ifs with h
  · exact ⟨.inl, fun hy => hy.elim id fun hyx => hyx ▸ h⟩
  · rw [mem_append, mem_singleton]

theorem mem_withoutElement {α : Type} [DecidableEq α] {l : List α} {x y : α} :
    y ∈ withoutElement l x ↔ y ∈ l ∧ y ≠ x := by
  unfold withoutElement
  rw [mem_filter, decide_eq_true_eq]

theorem Tracked.press (h : Tracked d s es) (hown : OwnSets d t)
    (hplace : t.lastScreenRect.all ScreenRect.isUsable = true) (hsub : ∀ k ∈ d.ups s, k ∈ d.ups t)
    (hp : p ∈ d.ups t ∨ p.isTyped = true) : Tracked d t (es ++ [.down p]) := by
  refine ⟨hown, hplace, fun k hk => ?_⟩
  rw [held_snoc] at hk
  rcases mem_cons.mp hk with rfl | hk
  · exact hp
  · exact (h.kept k hk).imp_left (hsub k)

theorem Tracked.lift (h : Tracked d s es) (hown : OwnSets d t)
    (hplace : t.lastScreenRect.all ScreenRect.isUsable = true) (hsub : ∀ k ∈ d.ups s, k ≠ p → k ∈ d.ups t) :
    Tracked d t (es ++ [.up p]) := by
  refine ⟨hown, hplace, fun k hk => ?_⟩
  rw [held_snoc] at hk
  obtain ⟨hk, hne⟩ := mem_filter.mp hk
  exact (h.kept k hk).imp_left fun hup => hsub k hup (of_decide_eq_true hne)

theorem Tracked.same {t : Injector} {es : List InputEvent} (h : Tracked d s es) (hown : OwnSets d t)
    (hplace : t.lastScreenRect.all ScreenRect.isUsable = true) (hsub : ∀ k ∈ d.ups s, k ∈ d.ups t) :
    Tracked d t (es ++ []) := by
  rw [append_nil]
  exact ⟨hown, hplace, fun k hk => (h.kept k hk).imp_left (hsub k)⟩

theorem posted_all (h : d.platform = .macOS → ∀ i, created i = true) (es : List InputEvent) :
    d.posted created es = es := by
  unfold Desktop.posted
  split_ifs with hmac
  · have hall : (es.zipIdx.filter fun e => e.1 = .threw || created e.2) = es.zipIdx :=
      filter_eq_self.mpr fun e _ => by rw [h hmac, Bool.or_true]
    rw [hall, zipIdx_map_fst]
  · rfl

theorem Tracked.click (h : Tracked d s es) (hown : OwnSets d t)
    (hplace : t.lastScreenRect.all ScreenRect.isUsable = true) (hsub : ∀ k ∈ d.ups s, k ∈ d.ups t) :
    Tracked d t (es ++ [.down p, .up p]) := by
  refine ⟨hown, hplace, fun k hk => ?_⟩
  rw [← singleton_append, ← append_assoc, held_snoc, held_snoc] at hk
  obtain ⟨hk, hne⟩ := mem_filter.mp hk
  have hold : k ∈ held es := (mem_cons.mp hk).resolve_left (of_decide_eq_true hne)
  exact (h.kept k hold).imp_left (hsub k)

theorem mem_ups_of_codes (hk : k ∈ d.ups s) (hwin : t.pressedWinKeyCodes = s.pressedWinKeyCodes)
    (hmac : t.pressedMacKeyCodes = s.pressedMacKeyCodes)
    (hbuttons : d.canClick = true → ∀ n ∈ s.pressedMouseButtons, .button (buttonOf n) = k →
      n ∈ t.pressedMouseButtons) :
    k ∈ d.ups t := by
  rw [mem_ups] at hk ⊢
  rw [hwin, hmac]
  refine hk.imp_left ?_
  rintro ⟨hclick, n, hn, hbutton⟩
  exact ⟨hclick, n, hbuttons hclick n hn hbutton, hbutton⟩

theorem Tracked.mouseAction (h : Tracked d s es) (action : String) (button : ℤ) {rect : Option ScreenRect}
    (hrect : rect.all ScreenRect.isUsable = true) :
    Tracked d (d.mouseAction s action button rect).1 (es ++ (d.mouseAction s action button rect).2) := by
  have hown := h.own.mouseAction action button rect
  cases hweb : d.web with
  | true =>
    have hstays : d.mouseAction s action button rect = (s, []) := if_pos hweb
    rw [hstays]
    exact h.same h.own h.place fun k hk => hk
  | false =>
    rw [mouseAction_of_place hweb fun _ => hrect] at hown ⊢
    unfold Desktop.mouseEvents
    by_cases hup : action = "up"
    · have hin : ∀ k ∈ d.ups s, (d.canClick = true → k ≠ .button (buttonOf button)) →
          k ∈ d.ups (s.noted action button rect) := fun k hk hne =>
        mem_ups_of_codes hk rfl rfl fun hclick n hn hbutton => by
          have hdown : ("up" : String) ≠ "down" := by decide
          simp only [Injector.noted, hup, hdown, if_true, if_false]
          exact mem_withoutElement.mpr ⟨hn, fun hsame => hne hclick (hsame ▸ hbutton.symm)⟩
      split_ifs with hclick
      · rename_i hdown
        exact absurd (hup.symm.trans hdown) (by decide)
      · exact h.lift hown hrect fun k hk hne => hin k hk fun _ => hne
      · exact h.same hown hrect fun k hk => hin k hk fun hclick' => absurd hclick' hclick
    · have hin : ∀ k ∈ d.ups s, k ∈ d.ups (s.noted action button rect) := fun k hk =>
        mem_ups_of_codes hk rfl rfl fun _ n hn _ => by
          simp only [Injector.noted, hup, if_false]
          split_ifs
          · exact mem_withElement.mpr (.inl hn)
          · exact hn
      split_ifs with hclick hdown
      · refine h.press hown hrect hin (.inl (mem_ups.mpr (.inl ⟨hclick, button, ?_, rfl⟩)))
        simp only [Injector.noted, hdown, if_true]
        exact mem_withElement.mpr (.inr rfl)
      · exact h.click hown hrect hin
      · exact h.same hown hrect hin

theorem mem_code_set {f : ℕ → Pressable} {codes : List ℕ} {code : ℕ} (isDown : Bool)
    (h : ∃ c ∈ codes, f c = k) (hne : isDown = false → k ≠ f code) :
    ∃ c ∈ (if isDown then withElement codes code else withoutElement codes code), f c = k := by
  obtain ⟨c, hc, rfl⟩ := h
  cases isDown with
  | true => exact ⟨c, mem_withElement.mpr (.inl hc), rfl⟩
  | false => exact ⟨c, mem_withoutElement.mpr ⟨hc, fun hsame => hne rfl (hsame ▸ rfl)⟩, rfl⟩

/-- A key of a code is pressed or released, where it can be. -/
theorem Tracked.coded (h : Tracked d s es) (hown : OwnSets d t)
    (hplace : t.lastScreenRect.all ScreenRect.isUsable = true)
    {can : Bool} (isDown : Bool) (hin : ∀ k ∈ d.ups s, (can = true → isDown = false → k ≠ p) → k ∈ d.ups t)
    (hdown : can = true → isDown = true → p ∈ d.ups t) :
    Tracked d t (es ++ if can then [if isDown then .down p else .up p] else []) := by
  split
  · rename_i hcan
    cases isDown with
    | true => exact h.press hown hplace (fun k hk => hin k hk nofun) (.inl (hdown hcan rfl))
    | false => exact h.lift hown hplace fun k hk hne => hin k hk fun _ _ => hne
  · rename_i hcan
    exact h.same hown hplace fun k hk => hin k hk fun hcan' => absurd hcan' hcan

theorem Tracked.macKey (h : Tracked d s es) (hmac : d.platform = .macOS) (isDown : Bool) (code : ℕ)
    (hown : OwnSets d t)
    (ht : t = { s with pressedMacKeyCodes :=
      if isDown then withElement s.pressedMacKeyCodes code else withoutElement s.pressedMacKeyCodes code }) :
    Tracked d t (es ++ d.macEvent isDown code) := by
  refine h.coded hown (ht ▸ h.place) isDown (fun k hk hne => ?_) fun hcan hisDown => ?_
  · rw [mem_ups] at hk ⊢
    rw [ht]
    refine hk.imp_right (.imp_right ?_)
    rintro ⟨-, hcan, hcode⟩
    exact ⟨hmac, hcan, mem_code_set isDown hcode (hne hcan)⟩
  · refine mem_ups.mpr (.inr (.inr ⟨hmac, hcan, code, ?_, rfl⟩))
    rw [ht, hisDown]
    exact mem_withElement.mpr (.inr rfl)

theorem Tracked.vkKey (h : Tracked d s es) (hwin : d.platform = .windows) (isDown : Bool) (code : ℕ)
    (hown : OwnSets d t)
    (ht : t = { s with pressedWinKeyCodes :=
      if isDown then withElement s.pressedWinKeyCodes code else withoutElement s.pressedWinKeyCodes code }) :
    Tracked d t (es ++ d.vkEvent isDown code) := by
  refine h.coded hown (ht ▸ h.place) isDown (fun k hk hne => ?_) fun hcan hisDown => ?_
  · rw [mem_ups] at hk ⊢
    rw [ht]
    refine hk.imp_right (.imp_left ?_)
    rintro ⟨-, hcan, hcode⟩
    exact ⟨hwin, hcan, mem_code_set isDown hcode (hne hcan)⟩
  · refine mem_ups.mpr (.inr (.inl ⟨hwin, hcan, code, ?_, rfl⟩))
    rw [ht, hisDown]
    exact mem_withElement.mpr (.inr rfl)

theorem Tracked.typed (h : Tracked d s es) (isDown : Bool) (hp : p.isTyped = true) :
    Tracked d s (es ++ [if isDown then .down p else .up p]) := by
  cases isDown with
  | true => exact h.press h.own h.place (fun k hk => hk) (.inr hp)
  | false => exact h.lift h.own h.place fun k hk _ => hk

theorem Tracked.keyAction (h : Tracked d s es) (action : String) (key : List ℕ) (keyCode : Option ℤ)
    (char : Option (List ℕ)) :
    Tracked d (d.keyAction casing s action key keyCode char).1
      (es ++ (d.keyAction casing s action key keyCode char).2) := by
  have hown := h.own.keyAction casing action key keyCode char
  have hstays : Tracked d s (es ++ []) := h.same h.own h.place fun k hk => hk
  unfold Desktop.keyAction at hown ⊢
  simp only at hown ⊢
  split
  · exact hstays
  · rename_i hweb
    rw [if_neg hweb] at hown
    cases hplatform : d.platform with
    | macOS =>
      simp only [hplatform] at hown ⊢
      rcases macKeyAction_cases casing d s (action = "down") key keyCode with hr | ⟨code, hr⟩
      · rw [hr]
        exact hstays
      · rw [hr] at hown ⊢
        exact h.macKey hplatform _ code hown rfl
    | windows =>
      simp only [hplatform] at hown ⊢
      rcases winKeyAction_cases casing d s (action = "down") key keyCode char with hr | ⟨unit, hr⟩ | ⟨code, hr⟩
      · rw [hr]
        exact hstays
      · rw [hr]
        exact h.typed _ rfl
      · rw [hr] at hown ⊢
        exact h.vkKey hplatform _ code hown rfl
    | linux => exact h.typed (p := .named _) _ rfl
    | other => exact hstays

theorem releasable_of_careful {a : InjectorAction} (h : Tracked d s es) (ha : Careful d es a) :
    Releasable d s es a := by
  rintro created rfl
  obtain ⟨hcreated, huntyped⟩ := ha
  refine ⟨.inr fun _ => h.place, fun k hk => ?_⟩
  have hup : k ∈ d.ups s := (h.kept k hk).resolve_right (by rw [huntyped k hk]; exact Bool.false_ne_true)
  obtain ⟨i, hi⟩ := mem_iff_getElem?.mp hup
  exact ⟨i, hi, fun hmac => hcreated hmac i⟩

theorem Tracked.step {es : List InputEvent} {a : InjectorAction} (h : Tracked d s es) (ha : Careful d es a)
    {t : Injector} {fs : List InputEvent} (hstep : step casing d s a = some (t, fs)) : Tracked d t (es ++ fs) := by
  cases a with
  | mouseAction action button =>
    refine rel_of_step (fun t fs => Tracked d t (es ++ fs)) hstep ?_
    simp only [posted_all ha.2]
    exact h.mouseAction action button ha.1
  | keyAction action key keyCode char =>
    refine rel_of_step (fun t fs => Tracked d t (es ++ fs)) hstep ?_
    simp only [posted_all ha]
    exact h.keyAction action key keyCode char
  | releaseAllPressed created =>
    have hall := ((released_iff h.own _).mpr (releasable_of_careful h ha) created rfl t fs hstep).2.1
    have hown := h.own.step hstep
    have hplace : t.lastScreenRect.all ScreenRect.isUsable = true := by
      refine prop_of_step (fun t => t.lastScreenRect.all ScreenRect.isUsable = true) hstep ?_
      rw [releaseAllPressed_rect fun _ => h.place]
      exact h.place
    -- Nothing is down any more.
    exact ⟨hown, hplace, fun k hk => absurd hk (allUp_iff.mp hall k)⟩

theorem tracked_start : Tracked d {} [] := ⟨ownSets_start, rfl, fun _ hk => absurd hk not_mem_nil⟩

/-- In a careful run `releaseAllPressed` releases all that was pressed: a key may be called otherwise when it
is released than when it was pressed, and a button may have another number. -/
theorem careful_released (casing : Casing) (d : Desktop) (as : List InjectorAction)
    (h : (injector casing d).Every (fun _ es => Careful d es) {} [] as) :
    (injector casing d).Every (Released casing d) {} [] as :=
  Machine.Every.imp (Tracked d) (fun _ _ _ _ _ htracked ha hstep => htracked.step ha hstep)
    (fun _ _ a htracked ha => (released_iff htracked.own a).mpr (releasable_of_careful htracked ha)) as tracked_start h

/-- A button, a typed character that is let go of, a key without a character and a second button. -/
def manyPresses : List InjectorAction :=
  [.mouseAction "down" 0 none fun _ => true,
    .keyAction "down" (codeUnits "a") (some 65) (some (codeUnits "a")) fun _ => true,
    .keyAction "up" (codeUnits "a") (some 65) (some (codeUnits "a")) fun _ => true,
    .keyAction "down" (codeUnits "Shift") (some 16) none fun _ => true, .mouseAction "down" 2 none fun _ => true,
    .releaseAllPressed fun _ => true]

/-- On Windows the buttons and the key that are left down are released. -/
theorem careful_released_sample : (injector ⟨id, id⟩ { platform := .windows }).Every
    (Released ⟨id, id⟩ { platform := .windows }) {} [] manyPresses := by
  let good (_ : Injector) (es : List InputEvent) : InjectorAction → Bool
    | .mouseAction _ _ rect _ => rect.all ScreenRect.isUsable
    | .keyAction _ _ _ _ _ => true
    | .releaseAllPressed _ => (held es).all (·.isTyped = false)
  have hgood : ∀ s es a, good s es a = true → Careful { platform := .windows } es a := by
    intro s es a ha
    cases a with
    | mouseAction => exact ⟨ha, nofun⟩
    | keyAction => exact nofun
    | releaseAllPressed => exact ⟨nofun, fun k hk => of_decide_eq_true (all_eq_true.mp ha k hk)⟩
  refine careful_released _ _ _ ?_
  obtain ⟨r, hrun⟩ := Option.isSome_iff_exists.mp (show ((injector ⟨id,
    id⟩ { platform := .windows }).exec good {} []
    manyPresses).isSome = true by decide +kernel)
  exact Machine.every_of_exec hgood _ hrun

/-- Over every run of the injector on every platform: `releaseAllPressed` releases all that was pressed and
empties the sets, each time that it is called, exactly when each time what is down is what the sets hold, with
a place of the mouse that can be computed. -/
theorem all_released_iff (casing : Casing) (d : Desktop) (as : List InjectorAction) :
    (injector casing d).Every (Released casing d) {} [] as ↔ (injector casing d).Every (Releasable d) {} [] as :=
  Machine.every_iff (fun s _ => OwnSets d s) (fun _ _ _ _ _ hown _ h => hown.step h)
    (fun _ _ a hown => released_iff hown a) as {} [] ownSets_start

/-- A character is typed on Windows, and its key is not released: it stays pressed. -/
theorem typed_character_stays_pressed : ¬∀ (casing : Casing) (d : Desktop) (as : List InjectorAction),
      (injector casing d).Every (Released casing d) {} [] as := by
  intro h
  let casing : Casing := ⟨id, id⟩
  let d : Desktop := { platform := .windows }
  let pressA : InjectorAction := .keyAction "down" (codeUnits "a") (some 65) (some (codeUnits "a")) fun _ => true
  have hcheck : ((injector casing d).exec (fun _ _ _ => true) {} [] [pressA]).any (fun r =>
      held r.2 = [.unicode 97] && (step casing d r.1 (.releaseAllPressed fun _ => true)).any (·.2 = [])) =
          true := by
    decide +kernel
  obtain ⟨s, es, hpath, hs⟩ := Machine.path_of_check hcheck
  obtain ⟨hdown, hsilent⟩ := (Bool.and_eq_true_iff ..).mp hs
  obtain ⟨out, hout, hnone⟩ := (Option.any_eq_true ..).mp hsilent
  have hreleased : Released casing d s es (.releaseAllPressed fun _ => true) :=
    (h casing d ([pressA] ++ [_])).good hpath
  have hall := (hreleased _ rfl out.1 out.2 hout).2.1
  rw [of_decide_eq_true hnone, append_nil] at hall
  refine allUp_iff.mp hall (.unicode 97) ?_
  rw [of_decide_eq_true hdown]
  exact mem_singleton_self _

end LigamentApps.InputInjector
