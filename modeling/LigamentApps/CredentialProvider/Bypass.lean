import LigamentApps.CredentialProvider.Frame

/-!
# What the bypass list exempts

A typed name stands for a user and a domain in one of three ways (`TypedAs`), and `SetStringValue`
splits it accordingly (`splitUserName_eq_iff`). The stored name stays that split until another
name is typed, whatever else happens on the tile and in its worker (`Path.nextName_eq`), so the
bypass check of `GetSerialization` sees exactly the user and domain that were typed. What is left
is a fact about `IsBypassAccount` on a user and a domain: it takes an entry that names the bare
user for a match also when there is a domain. -/

namespace LigamentApps.CredentialProvider

open LigamentApps.Text

variable {es : List Event} {s t : State} {P : Platform} (cfg : Config) (user : WString)

/-! ## Typed names -/

/-- `TypedAs raw user domain`: the text `raw` is a way to type `user` with `domain`, where an empty
domain means that none is typed. -/
inductive TypedAs : WString → WString → WString → Prop
  /-- `DOMAIN\user`. -/
  | netbios (user domain : WString) :
      (∀ c ∈ domain, c ≠ backslash) → TypedAs (domain ++ backslash :: user) user domain
  /-- `user@domain`. -/
  | upn (user domain : WString) :
      (∀ c ∈ user ++ atSign :: domain, c ≠ backslash) → (∀ c ∈ user, c ≠ atSign) →
      user ≠ [] → domain ≠ [] → TypedAs (user ++ atSign :: domain) user domain
  /-- A name without a domain: there is no at sign in it, or its first one has nothing before or
  nothing after it. -/
  | plain (raw : WString) :
      (∀ c ∈ raw, c ≠ backslash) →
      (∀ user domain, raw = user ++ atSign :: domain → (∀ c ∈ user, c ≠ atSign) →
        user = [] ∨ domain = []) → TypedAs raw raw []

/-- The two forms of a name that are split, and all others. -/
theorem splitUserName_eq_iff (raw user domain : WString) :
    splitUserName raw = (user, domain) ↔ TypedAs raw user domain := by
  have hback : ∀ xs : WString, cutFirst (· == backslash) xs = none ↔ ∀ c ∈ xs, c ≠ backslash := by
    intro xs
    rw [cutFirst_eq_none_iff]
    simp
  constructor
  · intro h
    unfold splitUserName at h
    split at h
    · rename_i d u hcut
      obtain ⟨rfl, rfl⟩ := Prod.mk.inj h
      obtain ⟨x, hx, rfl, hd⟩ := (cutFirst_eq_some_iff ..).mp hcut
      obtain rfl : x = backslash := by simpa using hx
      exact .netbios u d fun c hc => by simpa using hd c hc
    · rename_i hnone
      have hno := (hback raw).mp hnone
      split at h
      · rename_i u d hcut
        obtain ⟨x, hx, hraw, hu⟩ := (cutFirst_eq_some_iff ..).mp hcut
        obtain rfl : x = atSign := by simpa using hx
        split at h
        · rename_i hne
          obtain ⟨rfl, rfl⟩ := Prod.mk.inj h
          subst hraw
          exact .upn u d hno (fun c hc => by simpa using hu c hc) hne.1 hne.2
        · rename_i hne
          cases h
          refine .plain raw hno fun u' d' hraw' hu' => ?_
          have hcut' : cutFirst (· == atSign) raw = some (u', d') :=
            (cutFirst_eq_some_iff ..).mpr ⟨atSign, by simp, hraw', fun c hc => by
              simpa using hu' c hc⟩
          rw [hcut, Option.some.injEq, Prod.mk.injEq] at hcut'
          obtain ⟨rfl, rfl⟩ := hcut'
          by_contra hcon
          exact hne (by simpa [not_or] using hcon)
      · rename_i hcut
        cases h
        refine .plain raw hno fun u' d' hraw' _ => ?_
        have hfree := (cutFirst_eq_none_iff ..).mp hcut atSign (by simp [hraw'])
        simp at hfree
  · intro h
    cases h with
    | netbios user domain hd =>
      have hcut : cutFirst (· == backslash) (domain ++ backslash :: user) = some (domain, user) :=
        (cutFirst_eq_some_iff ..).mpr ⟨backslash, by simp, rfl, fun c hc => by
          simpa using hd c hc⟩
      simp [splitUserName, hcut]
    | upn user domain hno hu hue hde =>
      have hcut : cutFirst (· == atSign) (user ++ atSign :: domain) = some (user, domain) :=
        (cutFirst_eq_some_iff ..).mpr ⟨atSign, by simp, rfl, fun c hc => by simpa using hu c hc⟩
      simp [splitUserName, (hback _).mpr hno, hcut, hue, hde]
    | plain _ hno hat =>
      rw [splitUserName, (hback raw).mpr hno]
      cases hcut : cutFirst (· == atSign) raw with
      | none => rfl
      | some r =>
        obtain ⟨u, d⟩ := r
        obtain ⟨x, hx, hraw, hu⟩ := (cutFirst_eq_some_iff ..).mp hcut
        obtain rfl : x = atSign := by simpa using hx
        have hor := hat u d hraw fun c hc => by simpa using hu c hc
        have hnot : ¬(u ≠ [] ∧ d ≠ []) := by
          rintro ⟨hu', hd'⟩
          exact hor.elim hu' hd'
        simp only [hnot, if_false]

/-! ## The stored name -/

/-- Actions that type no name and set no configuration. -/
def Action.keepsName : Action → Bool
  | .setUsageScenario .. => false
  | .setStringValue .username _ => false
  | _ => true

/-- The user and domain that the tile holds once the current call has stored its value. -/
def State.nextName (s : State) : WString × WString :=
  ((s.store s.pc.pendingStore).username, (s.store s.pc.pendingStore).domain)

theorem nextName_congr (hu : t.username = s.username) (hd : t.domain = s.domain) (hpc : t.pc = s.pc) :
    t.nextName = s.nextName := by
  rw [State.nextName, State.nextName, hpc]
  cases s.pc.pendingStore with
  | username => rfl
  | nothing | password => exact Prod.ext hu hd

/-- What a step keeps so that the bypass check stays as it is: the name to come, and the
configuration. -/
def SameName (s t : State) : Prop := t.nextName = s.nextName ∧ t.config = s.config

theorem Quiet.sameName (h : Quiet s t) (hs : s.pc.pendingStore = .nothing) : SameName s t := by
  refine ⟨?_, h.config⟩
  rw [State.nextName, State.nextName, hs, h.store]
  exact Prod.ext h.username h.domain

theorem resetAuthState_sameName (s : State) (hpc : s.pc = .idle) (store : Store)
    (hstore : ∀ raw, store ≠ .username raw) : SameName s (s.resetAuthState store).1 := by
  refine ⟨?_, rfl⟩
  rw [State.nextName, State.nextName, hpc]
  cases store with
  | username raw => exact absurd rfl (hstore raw)
  | nothing | password => rfl

/-- What the LogonUI thread does after a wait keeps the name to come: after the wait in
`ResetAuthState` that name is stored, and nothing else touches it. -/
theorem afterJoin_sameName (s : State) (ok : Bool) (after : AfterJoin) (hpc : s.pc = .join after) :
    SameName s (s.joined.afterJoin ok after).1 := by
  by_cases hreset : ∃ store, after = .reset store
  · obtain ⟨store, rfl⟩ := hreset
    rw [SameName, State.nextName, State.nextName, hpc]
    cases store <;> exact ⟨rfl, rfl⟩
  · have hq := afterJoin_quiet s.joined ok after fun store hst => hreset ⟨store, hst⟩
    refine Quiet.sameName ⟨hq.username, hq.domain, hq.password, hq.config, hq.store⟩ ?_
    rw [hpc]
    cases after with
    | reset store => exact absurd ⟨store, rfl⟩ hreset
    | _ => rfl

theorem uiStep_sameName {ok : Bool} (h : s.uiStep P ok = some (t, es)) : SameName s t := by
  unfold State.uiStep at h
  split at h
  · cases h
  · rename_i after hpc
    refine prop_of_step (SameName s) h ?_
    rw [SameName, State.nextName, State.nextName, hpc]
    cases after with
    | reset store => cases store <;> exact ⟨rfl, rfl⟩
    | _ => exact ⟨rfl, rfl⟩
  · rename_i after hpc
    split at h
    · exact prop_of_step (SameName s) h (afterJoin_sameName s ok after hpc)
    · exact prop_of_step (SameName s) h (afterJoin_sameName s ok after hpc)
    · cases h
  · rename_i caller hpc
    exact prop_of_step (SameName s) h
      ((createThread_quiet s caller ok).sameName (by rw [hpc]; rfl))
  · rename_i hpc
    refine prop_of_step (SameName s) h (Quiet.sameName ?_ (by rw [hpc]; rfl))
    split
    · exact packAndFinish_quiet s .alreadyAuthenticated ok
    · exact giveUp_quiet s notFinished
  · rename_i hpc
    exact prop_of_step (SameName s) h ((readWorker_quiet s P).sameName (by rw [hpc]; rfl))

theorem step_sameName {a : Action} (h : step P s a = some (t, es)) (ha : a.keepsName = true) : SameName s t := by
  have hidle : ∀ {r : State × List Event}, s.pc = .idle → Quiet s r.1 → r = (t, es) →
      SameName s t := by
    rintro r hpc hq rfl
    exact hq.sameName (by rw [hpc]; rfl)
  cases a with
  | setUsageScenario => simp [Action.keepsName] at ha
  | setStringValue field psz =>
    obtain ⟨hpc, heq⟩ := step_call h
    cases field with
    | username => simp [Action.keepsName] at ha
    | password =>
      unfold State.setStringValue at heq
      dsimp only at heq
      split at heq
      · cases heq
        rw [SameName, State.nextName, State.nextName]
        exact ⟨by simp [State.store, hpc, UiPc.pendingStore], rfl⟩
      · have := resetAuthState_sameName s hpc (.password psz) (by simp)
        rwa [heq] at this
    | otpCode =>
      cases heq
      exact ⟨by simp [State.nextName, State.store, hpc, UiPc.pendingStore], rfl⟩
  | setSelected =>
    obtain ⟨hpc, heq⟩ := step_call h
    cases heq
    exact ⟨rfl, rfl⟩
  | setDeselected =>
    obtain ⟨hpc, heq⟩ := step_call h
    unfold State.setDeselected at heq
    split at heq
    · have := resetAuthState_sameName s hpc .nothing (by simp)
      rwa [heq] at this
    · cases heq
      exact ⟨rfl, rfl⟩
  | commandLinkClicked link =>
    obtain ⟨hpc, heq⟩ := step_call h
    cases link <;> exact hidle hpc (switchToMode_quiet s hpc _) heq
  | getSerialization packOk =>
    obtain ⟨hpc, heq⟩ := step_call h
    exact hidle hpc (getSerialization_quiet s packOk) heq
  | reportResult =>
    obtain ⟨hpc, heq⟩ := step_call h
    have := resetAuthState_sameName { s with password := [], otpCode := [] } hpc .nothing (by simp)
    unfold State.reportResult at heq
    rw [heq] at this
    refine ⟨this.1.trans ?_, this.2⟩
    simp [State.nextName, hpc, UiPc.pendingStore, State.store]
  | ui => exact uiStep_sameName h
  | worker =>
    have hframe : SharedOnly s t := workerStep_frame h
    rw [hframe]
    exact ⟨nextName_congr rfl rfl rfl, rfl⟩

theorem Path.sameName {as : List Action} (h : (tile P).Path s as t es)
    (has : ∀ a ∈ as, a.keepsName = true) : SameName s t := by
  induction h with
  | nil => exact ⟨rfl, rfl⟩
  | cons hstep _ ih =>
    have hfst := step_sameName hstep (has _ (by simp))
    have hrest := ih fun a ha => has a (List.mem_cons_of_mem _ ha)
    exact ⟨hrest.1.trans hfst.1, hrest.2.trans hfst.2⟩

theorem setStringValue_nextName {raw : WString}
    (h : step P s (.setStringValue .username raw) = some (t, es)) :
    t.nextName = splitUserName raw ∧ t.config = s.config := by
  obtain ⟨hpc, heq⟩ := step_call h
  unfold State.setStringValue at heq
  dsimp only at heq
  split at heq
  · cases heq
    refine ⟨?_, rfl⟩
    rw [State.nextName, show (s.store (.username raw)).pc = .idle from hpc]
    rfl
  · cases heq
    exact ⟨rfl, rfl⟩

/-! ## The list -/

/-- The rule of the bypass list: an entry exempts a name with a domain when it gives the user
together with that domain, in either form, and a name without one when it gives the user alone. -/
def NamesAccount (accounts : List WString) (user domain : WString) : Prop :=
  (domain ≠ [] ∧ ∃ acc ∈ accounts,
      WcsICmpEq acc (domain ++ backslash :: user) ∨ WcsICmpEq acc (user ++ atSign :: domain)) ∨
    (domain = [] ∧ ∃ acc ∈ accounts, WcsICmpEq acc user)

instance (accounts : List WString) (user domain : WString) :
    Decidable (NamesAccount accounts user domain) :=
  inferInstanceAs (Decidable (_ ∨ _))

/-- An entry of the list that `IsBypassAccount` takes for a match of a user typed with a domain
although it does not have to name that domain with this user: the user alone, or the domain with
what is left of the user when the check cuts it once more. -/
def Overmatches (accounts : List WString) (user domain : WString) : Prop :=
  ∃ acc ∈ accounts, WcsICmpEq acc user ∨
    WcsICmpEq acc (domain ++ backslash :: (cleanUser user).1) ∨
    WcsICmpEq acc ((cleanUser user).1 ++ atSign :: domain)

theorem isBypassAccount_plain_iff : cfg.isBypassAccount user [] = true ↔
      user ≠ [] ∧ ∃ acc ∈ cfg.bypassAccounts, WcsICmpEq acc user := by
  rw [isBypassAccount_iff]
  constructor
  · rintro ⟨hu, acc, hmem, heq | ⟨hno, heq⟩ | ⟨hne, -⟩⟩
    · exact ⟨hu, acc, hmem, heq⟩
    · rw [cleanUser_of_not_hadDomain user hno] at heq
      exact ⟨hu, acc, hmem, heq⟩
    · exact absurd rfl hne
  · rintro ⟨hu, acc, hmem, heq⟩
    exact ⟨hu, acc, hmem, .inl heq⟩

theorem isBypassAccount_domain_iff (domain : WString) (hd : domain ≠ []) : cfg.isBypassAccount user domain =
      true ↔ user ≠ [] ∧ Overmatches cfg.bypassAccounts user domain := by
  rw [isBypassAccount_iff]
  constructor
  · rintro ⟨hu, acc, hmem, heq | ⟨hno, heq⟩ | ⟨-, heq⟩⟩
    · exact ⟨hu, acc, hmem, .inl heq⟩
    · rw [cleanUser_of_not_hadDomain user hno] at heq
      exact ⟨hu, acc, hmem, .inl heq⟩
    · exact ⟨hu, acc, hmem, .inr heq⟩
  · rintro ⟨hu, acc, hmem, heq | heq⟩
    · exact ⟨hu, acc, hmem, .inl heq⟩
    · exact ⟨hu, acc, hmem, .inr (.inr ⟨hd, heq⟩)⟩

/-- `Bypassed P accounts raw`: under a list of accounts, some way of typing `raw` into the tile, of
doing then anything but typing a name or loading a configuration, and of submitting reaches the
bypass branch. -/
def Bypassed (P : Platform) (accounts : List WString) (raw : WString) : Prop :=
  ∃ (s t t' : State) (as : List Action) (es fs : List Event) (packOk : Bool) (c : Credentials)
    (failClose finished : Bool),
    s.config.bypassAccounts = accounts ∧
    (tile P).Path s (.setStringValue .username raw :: as) t es ∧
    (∀ a ∈ as, a.keepsName = true) ∧
    step P t (.getSerialization packOk) = some (t', fs) ∧
    Event.serialized c .bypass failClose finished ∈ fs

theorem getSerialization_bypass {packOk : Bool} {c : Credentials} {failClose finished : Bool}
    (h : Event.serialized c .bypass failClose finished ∈ (s.getSerialization packOk).2) :
    s.config.isBypassAccount s.username s.domain = true := by
  unfold State.getSerialization at h
  split at h
  · simp [State.giveUp] at h
  split at h
  · assumption
  split at h
  · simp at h
  split at h
  · split at h
    · simp [State.giveUp] at h
    · split at h <;> simp at h
  · split at h <;> simp at h
  · split at h
    · unfold State.triggerFIDO2Auth State.afterStart at h
      split at h <;> simp at h
    · simp at h

theorem bypassed_iff (P : Platform) (cfg : Config) (raw : WString) : Bypassed P cfg.bypassAccounts raw ↔
      cfg.isBypassAccount (splitUserName raw).1 (splitUserName raw).2 = true := by
  constructor
  · rintro ⟨s, t, t', as, es, fs, packOk, c, failClose, finished, hlist, hpath, has, hser, hmem⟩
    obtain ⟨hpc, hget⟩ := step_call hser
    have hby : t.config.isBypassAccount t.username t.domain = true :=
      getSerialization_bypass (by rw [hget]; exact hmem)
    obtain @⟨⟩ | ⟨hstep, hrest⟩ := hpath
    obtain ⟨hname, hcfg⟩ := setStringValue_nextName (P := P) hstep
    obtain ⟨hname', hcfg'⟩ := Path.sameName (P := P) hrest has
    have hsplit : splitUserName raw = (t.username, t.domain) := by
      rw [← hname, ← hname', State.nextName, hpc]
      rfl
    rw [hsplit, isBypassAccount_iff]
    rw [isBypassAccount_iff, hcfg', hcfg, hlist] at hby
    exact hby
  · intro hby
    -- A tile with a password and no name: typing the name resets, waits for no worker, and stores.
    let s : State := { created := true, config := cfg, password := [0x70] }
    have hne : (splitUserName raw).1 ≠ [] := ((isBypassAccount_iff ..).mp hby).1
    have hraw : ¬WcsICmpEq raw s.prevRaw := by
      intro heq
      have hnil : raw = [] := List.map_eq_nil_iff.mp heq
      exact hne (by rw [hnil]; rfl)
    have htype : step P s (.setStringValue .username raw) =
        some (s.resetAuthState (.username raw)) := by
      have hset : s.setStringValue .username raw = s.resetAuthState (.username raw) := by
        simp only [State.setStringValue, if_neg hraw]
      exact congrArg some hset
    generalize hu : (s.store (.username raw)) = u
    have hpath : (tile P).Path s [.setStringValue .username raw, .ui true, .ui true] u
        ([.reset] ++ ([] ++ ([] ++ []))) := by
      subst hu
      exact .cons htype (.cons rfl (.cons rfl (.nil _)))
    have hget : step P u (.getSerialization true) = some (u.packAndFinish .bypass true) := by
      subst hu
      have hser : (s.store (.username raw)).getSerialization true =
          (s.store (.username raw)).packAndFinish .bypass true := by
        rw [State.getSerialization, if_neg, if_pos]
        · exact hby
        · rintro (h | h)
          · exact hne h
          · simp [s, State.store] at h
      exact congrArg some hser
    exact ⟨s, u, (u.packAndFinish .bypass true).1, [.ui true, .ui true], _,
      (u.packAndFinish .bypass true).2, true, u.creds, u.config.failClose, true, rfl, hpath,
      by decide, hget, List.mem_cons_self ..⟩

/-- The typed name reaches the bypass branch only where the list exempts the account it names,
exactly when it is typed without a domain or without a user, or no entry overmatches it, or an
entry names it together with its domain. -/
theorem bypass_names_account_iff (P : Platform) (accounts : List WString) (raw : WString) :
    (Bypassed P accounts raw → ∃ user domain, TypedAs raw user domain ∧
        NamesAccount accounts user domain) ↔
      ∀ user domain, TypedAs raw user domain →
        domain = [] ∨ user = [] ∨ ¬Overmatches accounts user domain ∨
          ∃ acc ∈ accounts, WcsICmpEq acc (domain ++ backslash :: user) ∨
            WcsICmpEq acc (user ++ atSign :: domain) := by
  obtain ⟨user, domain, hsplit⟩ : ∃ user domain, splitUserName raw = (user, domain) :=
    ⟨_, _, rfl⟩
  have htyped : TypedAs raw user domain := (splitUserName_eq_iff ..).mp hsplit
  have honly : ∀ {u d}, TypedAs raw u d → u = user ∧ d = domain := by
    intro u d h
    have heq := (splitUserName_eq_iff ..).mpr h
    rw [hsplit, Prod.mk.injEq] at heq
    exact ⟨heq.1.symm, heq.2.symm⟩
  have hby := bypassed_iff P { Config.default with bypassAccounts := accounts } raw
  rw [hsplit] at hby
  constructor
  · rintro hclaim u d h
    obtain ⟨rfl, rfl⟩ := honly h
    by_cases hd : d = []
    · exact .inl hd
    by_cases hu : u = []
    · exact .inr (.inl hu)
    by_cases hover : Overmatches accounts u d
    · obtain ⟨u', d', h', hnames⟩ := hclaim
        (hby.mpr ((isBypassAccount_domain_iff _ _ _ hd).mpr ⟨hu, hover⟩))
      obtain ⟨rfl, rfl⟩ := honly h'
      rcases hnames with ⟨-, hacc⟩ | ⟨hempty, -⟩
      · exact .inr (.inr (.inr hacc))
      · exact absurd hempty hd
    · exact .inr (.inr (.inl hover))
  · intro hcond hbypassed
    have hcheck := hby.mp hbypassed
    refine ⟨user, domain, htyped, ?_⟩
    by_cases hd : domain = []
    · subst hd
      exact .inr ⟨rfl, ((isBypassAccount_plain_iff _ _).mp hcheck).2⟩
    · obtain ⟨hu, hover⟩ := (isBypassAccount_domain_iff _ _ _ hd).mp hcheck
      rcases hcond user domain htyped with h | h | h | h
      · exact absurd h hd
      · exact absurd h hu
      · exact absurd hover h
      · exact .inl ⟨hd, h⟩

/-- A list with the bare name `administrator` exempts `CORP\administrator`, which no entry
names. -/
theorem bare_name_bypasses_domain_name :
    ¬∀ (P : Platform) (accounts : List WString) (raw : WString), Bypassed P accounts raw →
      ∃ user domain, TypedAs raw user domain ∧ NamesAccount accounts user domain := by
  intro hclaim
  let P : Platform := ⟨fun _ => none, fun _ => []⟩
  let raw := wide "CORP\\administrator"
  have hby : Bypassed P [wide "administrator"] raw :=
    (bypassed_iff P { Config.default with bypassAccounts := [wide "administrator"] } raw).mpr
      (by decide)
  obtain ⟨user, domain, htyped, hnames⟩ := hclaim P _ raw hby
  have hsplit := (splitUserName_eq_iff ..).mpr htyped
  have hconcrete : splitUserName raw = (wide "administrator", wide "CORP") := by decide
  rw [hconcrete, Prod.mk.injEq] at hsplit
  obtain ⟨rfl, rfl⟩ := hsplit
  revert hnames
  decide

end LigamentApps.CredentialProvider
