import LigamentApps.LinkAgent.NothingLost

/-!
# The chunks of a session over its clients

The clients of one session share its directory, one after the other or side by side: a new one begins after a
restart of the agent, and when the worker of a recording has gone and the session is announced again. Each
numbers its chunks on its own, from 1. -/

namespace LigamentApps.LinkAgent

/-- The clients of a session, in the order of their creation, with its directory. The rest is kept for the
proofs only, as in `Recording`. -/
structure SessionClients where
  clients : List RecorderClient := []
  disk : ChunkDir := ∅
  answered : List IngestBatch := []
  unsent : List (String × SpooledBatch) := []

/-- A client is created, or one of the clients is called. -/
inductive SessionAction
  | create (cfg : RecorderClientConfig) (now : ℤ)
  | call (k : ℕ) (c : ClientCall)

namespace SessionClients

variable (h : SessionClients)

/-- What a client works on. -/
def view (client : RecorderClient) : Recording where
  client := client
  disk := h.disk
  answered := h.answered
  unsent := h.unsent

/-- A call of a client is over. -/
def put (k : ℕ) (s : Recording) : SessionClients where
  clients := h.clients.set k s.client
  disk := s.disk
  answered := s.answered
  unsent := s.unsent

/-- Each chunk that the server has not answered is on disk, under a name of its own and as it was written. -/
structure OwnChunks (h : SessionClients) : Prop where
  onDisk : ∀ e ∈ h.unsent, h.disk.lookup e.1 = some (some e.2)
  distinct : (h.unsent.map Prod.fst).Nodup

end SessionClients

def sessionClients (sessionID : String) : Machine SessionClients SessionAction Empty where
  step h a :=
    match a with
    | .create cfg now =>
      if cfg.sessionID = sessionID then
        (newRecorderClient cfg now).toOption.map fun client => ({ h with clients := h.clients ++ [client] }, [])
      else none
    | .call k c => h.clients[k]?.map fun client => (h.put k ((h.view client).call c), [])

namespace Recording

variable {s : Recording}

/-- A chunk that `Flush` writes has a number that no file has. -/
def WritesNewFile (s : Recording) (o : FlushOutcomes) : Prop :=
  s.SpoolsIn o → s.disk.lookup (chunkName (s.client.spoolIndex + 1)) = none

/-- A call that writes a chunk writes a new file, and a `Complete` that removes the directory has uploaded
it. -/
def KeepsFiles (s : Recording) : ClientCall → Prop
  | .flush o => s.WritesNewFile o
  | .complete o =>
    s.WritesNewFile o.flush ∧ (o.response.isSome = true → s.client.cfg.spooler = true → s.EmptiesSpool o)
  | _ => True

theorem Ledger.writesFresh (h : s.Ledger) {o : FlushOutcomes} (hnew : s.WritesNewFile o) : s.WritesFresh o := by
  intro hspools e he hname
  have hlookup := h.onDisk e he
  rw [hname, hnew hspools] at hlookup
  simp at hlookup

theorem Ledger.enqueueFrame (h : s.Ledger) (f : RecordedFrame) (now : String) :
    (s.enqueueFrame f now).1.Ledger := by
  unfold Recording.enqueueFrame
  split
  · exact h
  · split
    · exact h.of_same rfl rfl
    · exact h.of_same rfl rfl

theorem Ledger.enqueueEvent (h : s.Ledger) (e : RecordedEvent) (now : String) : (s.enqueueEvent e now).Ledger := by
  unfold Recording.enqueueEvent
  split
  · exact h
  · exact h.of_same rfl rfl

theorem Ledger.call (h : s.Ledger) : ∀ {c : ClientCall}, s.KeepsFiles c → (s.call c).Ledger
  | .enqueueFrame f now, _ => h.enqueueFrame f now
  | .enqueueEvent e now, _ => h.enqueueEvent e now
  | .flush _, hkeeps => h.flush (h.writesFresh hkeeps)
  | .drainSpool o, _ => h.drainSpool o
  | .complete _, hkeeps => h.complete (h.writesFresh hkeeps.1) hkeeps.2

/-! ## No file is replaced -/

/-- The files that are left are as they were. -/
def FilesStay (d d' : ChunkDir) : Prop :=
  ∀ name content content', d.lookup name = some content → d'.lookup name = some content' → content' = content

theorem FilesStay.of_fewer {d d' d'' : ChunkDir} (h : FilesStay d d')
    (hfewer : ∀ name content, d''.lookup name = some content → d'.lookup name = some content) : FilesStay d d'' :=
  fun name content content' hbefore hafter => h name content content' hbefore (hfewer name content' hafter)

theorem filesStay_refl (d : ChunkDir) : FilesStay d d := fun _ _ _ hbefore hafter =>
  Option.some.inj (hafter.symm.trans hbefore)

theorem WritesNewFile.filesStay {o : FlushOutcomes} (h : s.WritesNewFile o) :
    FilesStay s.disk (s.flush o).1.disk := by
  intro name content content' hbefore hafter
  rcases lookup_flush hafter with ⟨hspools, rfl, -⟩ | ⟨-, hsame⟩
  · rw [h hspools] at hbefore
    simp at hbefore
  · exact Option.some.inj (hsame.symm.trans hbefore)

theorem WritesNewFile.filesStay_lastUploads {o : CompleteOutcomes} (h : s.WritesNewFile o.flush) :
    FilesStay s.disk (s.lastUploads o).disk := by
  let closed : Recording := { s with client.closed := true }
  have hflush : FilesStay s.disk (closed.flush o.flush).1.disk := WritesNewFile.filesStay (s := closed) h
  exact hflush.of_fewer (drained_drainSpool o.drain).disk

theorem filesStay_complete {o : CompleteOutcomes} (h : s.WritesNewFile o.flush) :
    FilesStay s.disk (s.complete o).disk := by
  have hlast := h.filesStay_lastUploads
  unfold complete
  split
  · split
    · exact hlast.of_fewer fun _ _ hlookup => ChunkDir.lookup_of_removeSession hlookup
    · exact hlast
  · exact hlast

theorem disk_enqueueFrame (s : Recording) (f : RecordedFrame) (now : String) :
    (s.enqueueFrame f now).1.disk = s.disk := by
  unfold enqueueFrame
  split
  · rfl
  · split
    · rfl
    · rfl

theorem disk_enqueueEvent (s : Recording) (e : RecordedEvent) (now : String) :
    (s.enqueueEvent e now).disk = s.disk := by
  unfold enqueueEvent
  split
  · rfl
  · rfl

theorem KeepsFiles.filesStay : ∀ {c : ClientCall}, s.KeepsFiles c → FilesStay s.disk (s.call c).disk
  | .enqueueFrame f now, _ => by
    have hdisk : (s.call (.enqueueFrame f now)).disk = s.disk := disk_enqueueFrame s f now
    rw [hdisk]
    exact filesStay_refl s.disk
  | .enqueueEvent e now, _ => by
    have hdisk : (s.call (.enqueueEvent e now)).disk = s.disk := disk_enqueueEvent s e now
    rw [hdisk]
    exact filesStay_refl s.disk
  | .flush _, hkeeps => WritesNewFile.filesStay hkeeps
  | .drainSpool o, _ => (filesStay_refl s.disk).of_fewer (drained_drainSpool o).disk
  | .complete _, hkeeps => filesStay_complete hkeeps.1

end Recording

open Recording

/-- The condition of a step. -/
def SessionClients.KeepsFiles (h : SessionClients) : SessionAction → Prop
  | .create _ _ => True
  | .call k c => ∀ client, h.clients[k]? = some client → (h.view client).KeepsFiles c

variable {sessionID : String} {h t : SessionClients} {a : SessionAction} {fs : List Empty}

theorem sessionClients_step (hstep : (sessionClients sessionID).step h a = some (t, fs)) :
    (t.disk = h.disk ∧ t.unsent = h.unsent) ∨
      ∃ k c client, a = .call k c ∧ h.clients[k]? = some client ∧ t = h.put k ((h.view client).call c) := by
  cases a with
  | create =>
    dsimp only [sessionClients] at hstep
    split at hstep
    · obtain ⟨client, -, hpair⟩ := Option.map_eq_some_iff.mp hstep
      obtain rfl := (Prod.mk.inj hpair).1
      exact .inl ⟨rfl, rfl⟩
    · simp at hstep
  | call k c =>
    obtain ⟨client, hclient, hpair⟩ := Option.map_eq_some_iff.mp hstep
    exact .inr ⟨k, c, client, rfl, hclient, (Prod.mk.inj hpair).1.symm⟩

theorem SessionClients.OwnChunks.ledger (hown : h.OwnChunks) (client : RecorderClient) : (h.view client).Ledger :=
  ⟨hown.onDisk, hown.distinct⟩

theorem SessionClients.OwnChunks.step (hown : h.OwnChunks) (hkeeps : h.KeepsFiles a)
    (hstep : (sessionClients sessionID).step h a = some (t, fs)) : t.OwnChunks := by
  rcases sessionClients_step hstep with ⟨hdisk, hunsent⟩ | ⟨k, c, client, rfl, hclient, rfl⟩
  · constructor
    · rw [hunsent, hdisk]
      exact hown.onDisk
    · rw [hunsent]
      exact hown.distinct
  · have hledger := (hown.ledger client).call (hkeeps client hclient)
    exact ⟨hledger.onDisk, hledger.distinct⟩

theorem SessionClients.KeepsFiles.filesStay (hkeeps : h.KeepsFiles a)
    (hstep : (sessionClients sessionID).step h a = some (t, fs)) : FilesStay h.disk t.disk := by
  rcases sessionClients_step hstep with ⟨hdisk, -⟩ | ⟨k, c, client, rfl, hclient, rfl⟩
  · rw [hdisk]
    exact filesStay_refl h.disk
  · exact (hkeeps client hclient).filesStay

/-- In a run whose steps keep the files, over a directory with any files: each failed batch has a chunk of its
own until the server has answered it, and no step replaces a file. -/
theorem chunks_own_names {d : ChunkDir} {es : List Empty}
    (hrun : (sessionClients sessionID).Reach (fun h _ a => h.KeepsFiles a) { disk := d } h es) :
    h.OwnChunks ∧ ∀ a t fs, h.KeepsFiles a → (sessionClients sessionID).step h a = some (t, fs) →
      FilesStay h.disk t.disk := by
  refine ⟨?_, fun a t fs hkeeps hstep => hkeeps.filesStay hstep⟩
  have hstart : SessionClients.OwnChunks { disk := d } := ⟨fun _ he => absurd he List.not_mem_nil, List.nodup_nil⟩
  exact hrun.invariant (fun h _ => h.OwnChunks) hstart fun _ _ _ _ _ hown hkeeps hstep => hown.step hkeeps hstep

/-- A client is created, takes a frame, and fails to send it. -/
def failingOnce (k : ℕ) : List SessionAction :=
  [.create sampleClient.cfg 0, .call k (.enqueueFrame sampleRecordedFrame ""), .call k (.flush (flushWith .failed))]

/-- A client is created or takes an item, or its flush fails and writes a chunk. -/
def SessionAction.failsToSend : SessionAction → Bool
  | .create _ _ => true
  | .call _ (.enqueueFrame _ _) => true
  | .call _ (.enqueueEvent _ _) => true
  | .call _ (.flush o) => o.marshals && o.writes && match o.post with
    | .failed => true
    | .response .. => false
  | .call _ _ => false

/-- The second client of a session writes its first chunk over that of the first client. -/
theorem second_client_replaces_chunk : ¬ ∀ (h : SessionClients) (es : List Empty),
      (sessionClients "s").Reach (fun _ _ a => a.failsToSend = true) {} h es → h.OwnChunks := by
  intro hclaim
  have hreplaced : ∃ r ∈ (sessionClients "s").exec (fun _ _ a => a.failsToSend) {} []
      (failingOnce 0 ++ failingOnce 1), r.1.unsent.map Prod.fst = [chunkName 1, chunkName 1] := by decide +kernel
  obtain ⟨⟨h, es⟩, hexec, hnames⟩ := hreplaced
  have hown := hclaim h es (Machine.reach_of_exec (fun _ _ _ h => h) hexec)
  have hdistinct := hown.distinct
  rw [hnames] at hdistinct
  simp at hdistinct

/-- A check that is enough for `KeepsFiles`: no `Complete`, and a flush only where the next number is free. -/
def SessionClients.freeNumber (h : SessionClients) : SessionAction → Bool
  | .call k (.flush _) => h.clients[k]?.all fun client =>
    (h.disk.lookup (chunkName (client.spoolIndex + 1))).isNone
  | .call _ (.complete _) => false
  | _ => true

theorem keepsFiles_of_freeNumber (hfree : h.freeNumber a = true) : h.KeepsFiles a := by
  cases a with
  | create => trivial
  | call _ c =>
    intro client hclient
    cases c with
    | flush =>
      unfold SessionClients.freeNumber at hfree
      dsimp only at hfree
      rw [hclient, Option.all_some] at hfree
      exact fun _ => Option.isNone_iff_eq_none.mp hfree
    | complete => cases hfree
    | _ => trivial

/-- The first client of a session uploads its chunk before the second one fails to send. -/
theorem chunks_own_names_sample :
    ∃ h : SessionClients, h.clients.length = 2 ∧ h.unsent.map Prod.fst = [chunkName 1] ∧ h.OwnChunks := by
  have hdrained : ∃ r ∈ (sessionClients "s").exec (fun h _ a => h.freeNumber a) {} []
      (failingOnce 0 ++ [.call 0 (.drainSpool (drainWith (.response 200 .other)))] ++ failingOnce 1),
      r.1.clients.length = 2 ∧ r.1.unsent.map Prod.fst = [chunkName 1] := by decide +kernel
  obtain ⟨⟨h, es⟩, hexec, hclients, hnames⟩ := hdrained
  have hrun : (sessionClients "s").Reach (fun h _ a => h.KeepsFiles a) {} h es :=
    Machine.reach_of_exec (fun _ _ _ => keepsFiles_of_freeNumber) hexec
  exact ⟨h, hclients, hnames, (chunks_own_names hrun).1⟩

end LigamentApps.LinkAgent
