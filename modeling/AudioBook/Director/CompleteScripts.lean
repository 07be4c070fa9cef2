import AudioBook.Concurrent.Triples
import AudioBook.Director.ScriptPlans

/-!
# Validated Scripts Are Complete

Every program of the Director keeps the plans: it knows at each access that the message it handles
is on its plan, because the message was when it was sent and stays so. When a script is validated
its chunks are therefore the plan of its run, whatever was delivered again, and in whatever order.

Main results:

- `respects_planContract`: every program of the system keeps the contract.
- `complete_of_validated`: a validated script speaks its chapters, once and in order.
-/

namespace AudioBook

open Relational Concurrent

/-! ## The Contract -/

def planContract {ℓ : Type} (admits : ℓ → Store → Prop) : Contract Store ℓ :=
  .ofInvariant admits PlansKept Grows

/-- A fact that lasts while the store grows. -/
def Lasts (F : Store → Prop) : Prop := ∀ s s', Grows s s' → F s → F s'

/-- The plans are kept, and a fact is known. -/
def Known (F : Store → Prop) (s : Store) : Prop := PlansKept s ∧ F s

/-- All accesses of the program are quiet. -/
def QuietProgram {ℓ ε α : Type} (p : Prog Store ℓ ε α) : Prop :=
  p.Always fun _ w => ∀ s, Quiet s (w s)

section contract

variable {ℓ ε α : Type} {admits : ℓ → Store → Prop} {F G : Store → Prop} {l : ℓ}

theorem lasts_const {p : Prop} : Lasts fun _ => p := fun _ _ _ h => h

theorem Lasts.and (hF : Lasts F) (hG : Lasts G) : Lasts fun s => F s ∧ G s :=
  fun s s' hgrows h => ⟨hF s s' hgrows h.1, hG s s' hgrows h.2⟩

theorem lasts_onPlan (payload : DirectorPayload) : Lasts fun s => OnPlan s payload :=
  fun _ _ hgrows h => h.grows hgrows

theorem Lasts.stable (hF : Lasts F) : (planContract admits).Stable (Known F) :=
  Contract.stable_of_mono fun s s' _ hgrows h => hF s s' hgrows h

theorem triple_read_known (hF : Lasts F) {f : Store → α} {H : α → Store → Prop}
    (h : ∀ s, PlansKept s → F s → H (f s) s) :
    (planContract admits).Triple (Known F) (Prog.read l f : Prog Store ℓ ε α) fun a => Known (H a) :=
  Contract.triple_read hF.stable fun s hs => ⟨hs.1, h s hs.1 hs.2⟩

theorem triple_step (hF : Lasts F) {t : Transaction Store ε Unit}
    (h : ∀ s s', PlansKept s → F s → t s = .ok ((), s') → (PlansKept s' ∧ Grows s s') ∧ G s') :
    (planContract admits).Triple (Known F) (Prog.atomically l t) fun _ => Known G :=
  Contract.triple_atomically hF.stable fun s _ s' hs _ hok =>
    have hstep := h s s' hs.1 hs.2 hok
    ⟨fun _ => hstep.1, hstep.1.1, hstep.2⟩

theorem triple_quiet (hF : Lasts F) {t : Transaction Store ε Unit} (ht : t.Within Quiet) :
    (planContract admits).Triple (Known F) (Prog.atomically l t) fun _ => Known F :=
  triple_step hF fun s s' hs hfact hok =>
    have hquiet := ht s () s' hok
    ⟨⟨hs.of_quiet hquiet, hquiet.grows⟩, hF s s' hquiet.grows hfact⟩

theorem quiet_commit {t : Transaction Store ε α} (ht : t.Within Quiet) (s : Store) :
    Quiet s (Prog.commit t s) := by
  cases hok : t s with
  | ok r =>
    rw [Prog.commit_of_ok hok]
    exact ht s r.1 r.2 hok
  | error e =>
    rw [Prog.commit_of_error hok]
    exact refl_of Quiet s

theorem triple_quietProgram (hF : Lasts F) {p : Prog Store ℓ ε α} (hp : QuietProgram p) :
    (planContract admits).Triple (Known F) p fun _ => Known F := by
  have hallows : p.Always (planContract admits).Allows :=
    hp.mono fun l w hw s _ hs => ⟨hs.of_quiet (hw s), (hw s).grows⟩
  intro s hs
  exact Contract.wp_mono (fun _ _ h => h.2) (fun _ _ _ => trivial)
    (Contract.wp_frame hF.stable hs (Contract.safe_of_always hallows))

theorem quietProgram_read {f : Store → α} : QuietProgram (Prog.read l f : Prog Store ℓ ε α) :=
  Prog.always_read fun s => refl_of Quiet s

theorem quietProgram_atomically {t : Transaction Store ε α} (ht : t.Within Quiet) :
    QuietProgram (Prog.atomically l t) :=
  Prog.always_atomically (quiet_commit ht)

end contract

/-! ## The API and the Sweeper -/

section service

variable {admits : Access → Store → Prop} {F : Store → Prop}

theorem quietProgram_query {α : Type} (f : Store → α) : QuietProgram (query f) := quietProgram_read

theorem quietProgram_perform {a : Access} (h : a.Quiet) : QuietProgram (perform a) :=
  quietProgram_atomically (quiet_tx h)

theorem quietProgram_freshId : QuietProgram freshId :=
  ⟨quiet_commit (quiet_tx (a := .freshId) trivial), fun _ => trivial, fun _ => trivial⟩

theorem quietProgram_freshIdsFor {α : Type} (as : List α) : QuietProgram (freshIdsFor as) := by
  induction as with
  | nil => trivial
  | cons a as ih =>
    exact Prog.always_bind quietProgram_freshId fun _ => Prog.always_bind ih fun _ => trivial

variable {envelope : Envelope}

theorem quietProgram_enqueue (h : envelope.director? = none) :
    QuietProgram (enqueueProcessingJob envelope) :=
  Prog.always_bind (quietProgram_perform h) fun _ => quietProgram_perform trivial

theorem quietProgram_enqueueAll {envelopes : List Envelope}
    (h : ∀ envelope ∈ envelopes, envelope.director? = none) : QuietProgram (enqueueAll envelopes) := by
  induction envelopes with
  | nil => trivial
  | cons envelope envelopes ih =>
    have hrest := ih fun other hother => h other (List.mem_cons_of_mem _ hother)
    refine Prog.always_bind ?_ fun failure => Prog.always_bind hrest fun _ => ?_
    · exact Prog.always_tryCatch (Prog.always_bind
        (quietProgram_enqueue (h envelope List.mem_cons_self)) fun _ => trivial) fun _ => trivial
    · split <;> trivial

theorem quietProgram_propagateCancellation (jobs : List (Id × JobStatus)) :
    QuietProgram (propagateCancellation jobs) := by
  induction jobs with
  | nil => trivial
  | cons p jobs ih =>
    rw [propagateCancellation]
    have hflag : QuietProgram (tryCatch (perform (.setCancellationFlag p.1)) fun _ => pure () :
        Service Unit) :=
      Prog.always_tryCatch (quietProgram_perform trivial) fun _ => trivial
    split
    · refine Prog.always_bind ?_ fun _ => Prog.always_bind hflag fun _ => ih
      exact Prog.always_tryCatch (quietProgram_perform trivial) fun _ => trivial
    · exact Prog.always_bind hflag fun _ => ih

theorem quietProgram_cancelJob (jobId : Id) : QuietProgram (cancelJob jobId) := by
  refine Prog.always_bind (quietProgram_query _) fun found => ?_
  split
  · trivial
  split
  · trivial
  refine Prog.always_bind (quietProgram_query _) fun children => ?_
  refine Prog.always_bind (quietProgram_perform trivial) fun _ =>
    Prog.always_bind (quietProgram_propagateCancellation _) fun _ => ?_
  exact Prog.always_bind quietProgram_read fun _ =>
    Prog.always_bind (quietProgram_query _) fun _ => trivial

theorem quietProgram_planTts (bookId : Id) (body : StartTts) : QuietProgram (planTts bookId body) := by
  refine Prog.always_bind (quietProgram_query _) fun book => ?_
  split
  · trivial
  split
  · trivial
  refine Prog.always_bind (quietProgram_query _) fun script => ?_
  split
  · trivial
  split
  · trivial
  split
  · trivial
  refine Prog.always_bind (quietProgram_query _) fun chunks => ?_
  split
  · trivial
  refine Prog.always_bind (quietProgram_query _) fun targetable => ?_
  split
  · trivial
  split
  · trivial
  split <;> trivial

theorem quietProgram_startTts (bookId : Id) (body : StartTts) :
    QuietProgram (startTts bookId body) := by
  refine Prog.always_bind (quietProgram_planTts _ _) fun plan => ?_
  split
  · trivial
  refine Prog.always_bind quietProgram_freshId fun _ =>
    Prog.always_bind (quietProgram_freshIdsFor _) fun _ =>
      Prog.always_bind (quietProgram_freshIdsFor _) fun withIds => ?_
  refine Prog.always_bind (quietProgram_perform ⟨rfl, fun p hp => ?_⟩) fun _ =>
    quietProgram_enqueueAll fun envelope henvelope => ?_
  · obtain ⟨target, -, rfl⟩ := List.mem_map.mp hp
    rfl
  · obtain ⟨target, -, rfl⟩ := List.mem_map.mp henvelope
    rfl

theorem triple_enqueue (hF : Lasts F)
    (hplan : ∀ s, F s → ∀ payload, envelope.director? = some payload → OnPlan s payload) :
    (planContract admits).Triple (Known F) (enqueueProcessingJob envelope) fun _ => Known F := by
  refine Contract.Triple.bind (G := fun _ => Known F) (triple_step hF fun s s' hs hfact hok => ?_)
    fun _ => triple_quiet hF (quiet_tx (a := .markQueued envelope.jobId) trivial)
  cases hok
  have hsend := hs.send (hplan s hfact)
  exact ⟨hsend, hF _ _ hsend.2 hfact⟩

theorem PlansKept.onPlan_of_orphaned {s : Store} (h : PlansKept s)
    (henvelope : envelope ∈ orphanedJobs s) {payload : DirectorPayload}
    (hpayload : envelope.director? = some payload) : OnPlan s payload := by
  obtain ⟨job, hjob, hdispatch⟩ := List.mem_filterMap.mp henvelope
  split at hdispatch
  · have hdirector : job.director? = some payload := by
      rw [ProcessingJob.director?, hdispatch]
      exact hpayload
    obtain ⟨hrun, hroot⟩ := h.jobs job hjob payload hdirector
    exact hroot.onPlan hrun
  · cases hdispatch

theorem triple_sweepJobs {envelopes : List Envelope} :
    (planContract admits).Triple
      (Known fun s => ∀ envelope ∈ envelopes, ∀ payload,
        envelope.director? = some payload → OnPlan s payload)
      (sweepJobs envelopes) fun _ => Known fun _ => True := by
  induction envelopes with
  | nil => exact Contract.triple_pure fun s hs => ⟨hs.1, trivial⟩
  | cons envelope envelopes ih =>
    have hF : Lasts fun s => ∀ other ∈ envelope :: envelopes, ∀ payload,
        other.director? = some payload → OnPlan s payload :=
      fun s s' hgrows h other hother payload hpayload =>
        (h other hother payload hpayload).grows hgrows
    refine Contract.Triple.bind (Contract.Triple.tryCatch hF.stable (triple_enqueue hF
      fun s h => h envelope List.mem_cons_self) fun _ => Contract.triple_pure fun _ hs => hs) fun _ => ?_
    exact ih.mono (fun s hs => ⟨hs.1, fun other hother =>
      hs.2 other (List.mem_cons_of_mem _ hother)⟩) fun _ _ hs => hs

theorem triple_pollOnce :
    (planContract admits).Triple (Known fun _ => True) pollOnce fun _ => Known fun _ => True := by
  refine Contract.Triple.bind (triple_read_known lasts_const fun s hs _ => ?_) fun _ =>
    triple_sweepJobs
  exact fun envelope henvelope payload hpayload => hs.onPlan_of_orphaned henvelope hpayload

theorem isRoot_directorRootEnvelope {s : Store} {jobId bookId bookVersionId : Id}
    {directorVersion : ℕ} {body : StartDirector} {firstChapter : Chapter} {rest : List Chapter}
    {run : DirectorPayload} (hchapters : chaptersToDirect bookVersionId body s = firstChapter :: rest)
    (hrun : (directorRootEnvelope jobId bookId bookVersionId directorVersion firstChapter
      rest).director? = some run) : IsRoot s jobId run := by
  cases hrun
  exact ⟨rfl, rfl, rfl, rfl, body, by rw [hchapters]⟩

theorem triple_startDirector (bookId : Id) (body : StartDirector) :
    (planContract admits).Triple (Known fun _ => True) (startDirector bookId body)
      fun _ => Known fun _ => True := by
  have hquery {α : Type} (f : Store → α) :
      (planContract admits).Triple (Known fun _ => True) (query f) fun _ => Known fun _ => True :=
    triple_quietProgram lasts_const (quietProgram_query f)
  refine Contract.Triple.bind (hquery _) fun found => ?_
  split
  · exact Contract.triple_throw
  split
  · exact Contract.triple_throw
  next bookVersionId _ =>
  split
  · exact Contract.triple_throw
  refine Contract.Triple.bind (hquery _) fun running => ?_
  split
  · exact Contract.triple_throw
  refine Contract.Triple.bind (triple_read_known lasts_const
    (H := fun chapters s => chaptersToDirect bookVersionId body s = chapters)
    fun s _ _ => rfl) fun chapters => ?_
  have hF : Lasts fun s => chaptersToDirect bookVersionId body s = chapters :=
    fun s s' hgrows h => (chaptersToDirect_congr hgrows.chapters _ _).trans h
  split
  · exact Contract.triple_throw
  split
  · exact Contract.triple_throw
  next firstChapter rest _ =>
  refine Contract.Triple.bind (triple_quietProgram hF (quietProgram_query _)) fun current => ?_
  split
  · exact Contract.triple_throw
  refine Contract.Triple.bind (triple_quietProgram hF quietProgram_freshId) fun jobId => ?_
  obtain ⟨run, hdirector⟩ : ∃ run, (directorRootEnvelope jobId bookId bookVersionId
      (body.directorVersion.getD defaultDirectorVersion) firstChapter rest).director? = some run :=
    ⟨_, rfl⟩
  refine Contract.Triple.bind (G := fun _ => Known fun s => OnPlan s run)
    (triple_step hF fun s s' hs hchapters hok => ?_) fun _ => ?_
  · have hroot : IsRoot s jobId run := isRoot_directorRootEnvelope hchapters hdirector
    have hjob : (directorRootJob jobId bookId bookVersionId
        (body.directorVersion.getD defaultDirectorVersion) firstChapter rest).director? = some run :=
      hdirector
    obtain ⟨hkept, hgrows, hfound⟩ := hs.create hjob hroot hok
    exact ⟨⟨hkept, hgrows⟩, (hroot.congr hgrows.chapters).onPlan hfound⟩
  · refine (triple_enqueue (lasts_onPlan run) fun s hplan payload hpayload => ?_).mono
      (fun _ hs => hs) fun _ _ hs => ⟨hs.1, trivial⟩
    rw [Option.some_inj.mp (hpayload.symm.trans hdirector)]
    exact hplan

end service

/-! ## The Workers -/

section worker

variable {admits : WorkerAccess → Store → Prop} {F : Store → Prop}

theorem quietProgram_workerQuery {α : Type} (f : Store → α) : QuietProgram (Worker.query f) :=
  quietProgram_read

theorem quietProgram_run {a : WorkerAccess} (h : a.Quiet) : QuietProgram (Worker.run a) :=
  quietProgram_atomically (quiet_session h)

theorem quietProgram_newIds (n : ℕ) : QuietProgram (Worker.newIds n) :=
  ⟨quiet_commit (quiet_session (a := .newIds n) trivial), fun _ => trivial, fun _ => trivial⟩

theorem quietProgram_newId : QuietProgram Worker.newId :=
  ⟨quiet_commit (quiet_session (a := .newIds 1) trivial), fun _ => trivial, fun _ => trivial⟩

theorem quietProgram_callModel (n : ℕ) : QuietProgram (Worker.callModel n) := by
  induction n with
  | zero => trivial
  | succ n ih => exact Prog.always_bind quietProgram_read fun _ => ih

theorem quietProgram_workerHaltIfCancelled (jobId : Id) :
    QuietProgram (workerHaltIfCancelled jobId) := by
  refine Prog.always_bind (quietProgram_workerQuery _) fun found => ?_
  split
  · trivial
  split
  · trivial
  have hhalt (cancelled : Bool) : QuietProgram (if ¬ cancelled then pure false else
      Worker.run (.haltCancelled jobId) >>= fun _ => pure true) := by
    split
    · trivial
    · exact Prog.always_bind (quietProgram_run trivial) fun _ => trivial
  split
  · exact hhalt true
  · refine Prog.always_bind ?_ hhalt
    exact Prog.always_tryCatch quietProgram_read fun _ => quietProgram_workerQuery _

variable (ctx : JobContext)

theorem quietProgram_raiseTtsError (ttsJobId : Id) (code : TtsErrorCode) :
    QuietProgram (raiseTtsError ctx ttsJobId code) := by
  rw [raiseTtsError]
  split
  · exact Prog.always_bind (quietProgram_run trivial) fun _ => trivial
  · trivial

theorem quietProgram_handleGenerateTtsChunk (ttsJobId : Id) (ctx : JobContext) :
    QuietProgram (handleGenerateTtsChunk ttsJobId ctx) := by
  refine Prog.always_bind (quietProgram_workerQuery _) fun found => ?_
  split
  · trivial
  split
  · trivial
  refine Prog.always_bind (quietProgram_workerQuery _) fun ttsJob => ?_
  split
  · trivial
  split
  · exact quietProgram_run trivial
  refine Prog.always_bind (quietProgram_workerQuery _) fun chunk => ?_
  split
  · trivial
  refine Prog.always_bind (quietProgram_workerQuery _) fun existing => ?_
  split
  · exact quietProgram_run trivial
  refine Prog.always_bind (quietProgram_workerQuery _) fun voiceVersion => ?_
  split
  · trivial
  split
  · trivial
  split
  · trivial
  split
  · trivial
  refine Prog.always_bind (quietProgram_workerQuery _) fun script => ?_
  split
  · trivial
  refine Prog.always_bind (quietProgram_run trivial) fun _ => ?_
  refine Prog.always_bind ?_ fun _ => Prog.always_bind ?_ fun _ => ?_
  · exact Prog.always_tryCatch quietProgram_read fun _ => quietProgram_raiseTtsError _ _ _
  · exact Prog.always_tryCatch quietProgram_read fun _ => quietProgram_raiseTtsError _ _ _
  · exact Prog.always_bind quietProgram_newId fun _ => quietProgram_run trivial

theorem quietProgram_decideChapter (n : ℕ) : QuietProgram (decideChapter ctx n) := by
  refine Prog.always_tryCatch (quietProgram_callModel n) fun err => ?_
  split
  · exact Prog.always_bind (quietProgram_run trivial) fun _ => trivial
  · trivial

theorem quietProgram_decideRevision (n : ℕ) : QuietProgram (decideRevision ctx n) := by
  refine Prog.always_tryCatch (quietProgram_callModel n) fun err => ?_
  split
  · exact Prog.always_bind (quietProgram_run trivial) fun _ => trivial
  · trivial

theorem triple_storeChapter {payload : DirectorPayload} {audioScriptId : Id}
    {chunks : List BuiltChunk} :
    (planContract admits).Triple
      (Known fun s => OnPlan s { payload with audioScriptId := some audioScriptId } ∧
        ChapterChunks s payload audioScriptId chunks)
      (storeChapter ctx payload audioScriptId chunks) fun _ => Known fun _ => True := by
  have hF : Lasts fun s => OnPlan s { payload with audioScriptId := some audioScriptId } ∧
      ChapterChunks s payload audioScriptId chunks := by
    refine (lasts_onPlan _).and fun s s' hgrows h => ⟨h.audioScriptId, h.planned.trans ?_⟩
    rw [planChapter, planChapter, loadParagraphsForChapter_congr hgrows.paragraphs]
  unfold storeChapter
  dsimp only
  split
  · next hremaining =>
    exact triple_step hF fun s s' hs hfact hok =>
      ⟨hs.finish hfact.1 hfact.2 hremaining hok, trivial⟩
  · next nextChapterId remaining hremaining =>
    refine Contract.Triple.bind (triple_quietProgram hF quietProgram_newId) fun nextJobId => ?_
    refine Contract.Triple.bind (G := fun _ => Known fun s => OnPlan s { payload with
      audioScriptId := some audioScriptId
      chapterId := nextChapterId
      remainingChapterIds := remaining
      sequenceIndexStart := payload.sequenceIndexStart + chunks.length })
      (triple_step hF fun s s' hs hfact hok => ?_) fun _ => ?_
    · obtain ⟨hkept, hgrows, hnext⟩ := hs.chain hfact.1 hfact.2 hremaining rfl hok
      exact ⟨⟨hkept, hgrows⟩, hnext⟩
    · refine triple_step (lasts_onPlan _) fun s s' hs hplan hok => ?_
      cases hok
      refine ⟨hs.send fun next hnext => ?_, trivial⟩
      cases hnext
      exact hplan

theorem triple_newIds (hF : Lasts F) (n : ℕ) :
    (planContract admits).Triple (Known F) (Worker.newIds n)
      fun ids => Known fun s => F s ∧ ids.length = n := by
  refine Contract.triple_access hF.stable fun s hs _ => ?_
  have hquiet : Quiet s (Prog.commit (WorkerAccess.newIds n).session s) :=
    quiet_commit (quiet_session (a := .newIds n) trivial) s
  have hkept := hs.1.of_quiet hquiet
  exact ⟨fun _ => ⟨hkept, hquiet.grows⟩, hkept, hF _ _ hquiet.grows hs.2, List.length_range'⟩

theorem triple_beginChapter {payload : DirectorPayload} {paragraphs : List Paragraph}
    (jobId newScriptId : Id) :
    (planContract admits).Triple
      (Known fun s => OnPlan s payload ∧ loadParagraphsForChapter payload.chapterId s = paragraphs)
      (Worker.run (.beginChapter jobId (newScript payload newScriptId)))
      fun _ => Known fun s =>
        OnPlan s { payload with audioScriptId := some (payload.audioScriptId.getD newScriptId) } ∧
          loadParagraphsForChapter payload.chapterId s = paragraphs := by
  have hF : Lasts fun s =>
      OnPlan s payload ∧ loadParagraphsForChapter payload.chapterId s = paragraphs :=
    (lasts_onPlan payload).and fun s s' hgrows h =>
      (loadParagraphsForChapter_congr hgrows.paragraphs).trans h
  refine triple_step hF fun s s' hs hfact hok => ?_
  cases hscript : payload.audioScriptId with
  | some audioScriptId =>
    have hquiet : Quiet s s' := by
      refine quiet_session (a := .beginChapter jobId (newScript payload newScriptId)) ?_ s () s' hok
      simp only [WorkerAccess.Quiet, newScript, hscript]
    have hlasts := hF s s' hquiet.grows hfact
    refine ⟨⟨hs.of_quiet hquiet, hquiet.grows⟩, ?_, hlasts.2⟩
    rw [Option.getD_some, ← hscript]
    exact hlasts.1
  | none =>
    obtain ⟨run, hrun, hsame⟩ := hfact.1.run
    obtain ⟨before, hposition⟩ := hfact.1.position
    have hnew : newScript payload newScriptId = some {
        audioScriptId := newScriptId
        bookId := payload.bookId
        bookVersionId := payload.bookVersionId
        directorVersion := payload.directorVersion
        jobId := payload.rootJobId } := by
      rw [newScript, hscript]
    rw [hnew] at hok
    obtain ⟨hkept, hgrows, hhas⟩ := hs.beginChapter hrun hok
    have hlasts := hF s s' hgrows hfact
    have hposition' := hposition.grows hgrows
    refine ⟨⟨hkept, hgrows⟩, ⟨⟨run, hgrows.runs _ _ hrun, hsame⟩, before, hposition'.chapters,
      hposition'.start, (fun hnone => by cases hnone), fun id hid => ?_⟩, hlasts.2⟩
    cases hid
    refine ⟨hhas, fun planned hplanned => ?_⟩
    -- a run without a script has stored nothing
    rw [hposition.fresh hscript] at hplanned
    cases hplanned

theorem triple_handleGenerateDirectorIr (payload : DirectorPayload) (ctx : JobContext) :
    (planContract admits).Triple (Known fun s => OnPlan s payload)
      (handleGenerateDirectorIr payload ctx) fun _ => Known fun _ => True := by
  have hF := lasts_onPlan payload
  have hquery {α : Type} (f : Store → α) : (planContract admits).Triple
      (Known fun s => OnPlan s payload) (Worker.query f) fun _ => Known fun s => OnPlan s payload :=
    triple_quietProgram hF (quietProgram_workerQuery f)
  refine Contract.Triple.bind (hquery _) fun found => ?_
  split
  · exact Contract.triple_throw
  split
  · exact Contract.triple_pure fun _ hs => ⟨hs.1, trivial⟩
  refine Contract.Triple.bind (hquery _) fun chapter => ?_
  split
  · exact Contract.triple_throw
  split
  · exact Contract.triple_throw
  refine Contract.Triple.bind (hquery _) fun book => ?_
  split
  · exact Contract.triple_throw
  refine Contract.Triple.bind (triple_read_known hF (H := fun paragraphs s => OnPlan s payload ∧
    loadParagraphsForChapter payload.chapterId s = paragraphs) fun s _ hplan => ⟨hplan, rfl⟩)
    fun paragraphs => ?_
  have hparagraphs : Lasts fun s =>
      loadParagraphsForChapter payload.chapterId s = paragraphs := fun s s' hgrows h =>
    (loadParagraphsForChapter_congr hgrows.paragraphs).trans h
  refine Contract.Triple.bind (triple_quietProgram (hF.and hparagraphs) quietProgram_newId)
    fun newScriptId => ?_
  refine Contract.Triple.bind (triple_beginChapter _ newScriptId) fun _ => ?_
  have hscript := (lasts_onPlan { payload with
    audioScriptId := some (payload.audioScriptId.getD newScriptId) }).and hparagraphs
  refine Contract.Triple.bind (triple_quietProgram hscript (quietProgram_decideChapter ctx _))
    fun _ => ?_
  refine Contract.Triple.bind (triple_newIds hscript _) fun chunkIds => ?_
  refine (triple_storeChapter ctx).mono (fun s hs => ⟨hs.1, hs.2.1.1, fun chunk hchunk => ?_, ?_⟩)
    fun _ _ hs => hs
  · exact audioScriptId_of_mem_buildChunks hchunk
  · rw [planChapter, hs.2.1.2]
    exact buildChunks_planned _ _ hs.2.2 _ _

theorem PlansKept.numberTaken {s : Store} (h : PlansKept s) {bookId : Id} {chunkIds : List Id}
    {row : AudioScriptChunk} (hrow : row ∈ chunksForRevision bookId chunkIds s) :
    NumberTaken s row := by
  obtain ⟨chunkId, -, hfound⟩ := List.mem_filterMap.mp hrow
  have hmem : row ∈ s.audioScriptChunks :=
    List.mem_of_find?_eq_some (Option.mem_filter_iff.mp hfound).1
  refine ⟨row, hmem, ?_⟩
  rw [Db.chunkSequenceCurrentKey, if_pos (h.chunks row hmem).1]

theorem fst_mem_of_mem_withParagraphs {s : Store} {rows : List AudioScriptChunk}
    {found : AudioScriptChunk × Paragraph} (h : found ∈ withParagraphs rows s) : found.1 ∈ rows := by
  obtain ⟨row, hrow, hfound⟩ := List.mem_filterMap.mp h
  obtain ⟨chapter, -, hfound⟩ := Option.bind_eq_some_iff.mp hfound
  obtain ⟨paragraph, -, rfl⟩ := Option.map_eq_some_iff.mp hfound
  exact hrow

theorem lasts_numberTaken (row : AudioScriptChunk) : Lasts fun s => NumberTaken s row :=
  fun _ _ hgrows h => h.of_place hgrows.chunks

theorem triple_handleReviseDirectorIr (bookId : Id) (chunkIds : List Id) (directorVersion : ℕ)
    (ctx : JobContext) :
    (planContract admits).Triple (Known fun _ => True)
      (handleReviseDirectorIr bookId chunkIds directorVersion ctx) fun _ => Known fun _ => True := by
  refine Contract.Triple.bind (triple_quietProgram lasts_const (quietProgram_workerQuery _))
    fun job => ?_
  split
  · exact Contract.triple_throw
  split
  · exact Contract.triple_pure fun _ hs => hs
  refine Contract.Triple.bind (triple_read_known lasts_const
    (H := fun rows s => ∀ row ∈ rows, NumberTaken s row) fun s hs _ row hrow => hs.numberTaken hrow)
    fun rows => ?_
  have hF : Lasts fun s => ∀ row ∈ rows, NumberTaken s row := fun s s' hgrows h row hrow =>
    lasts_numberTaken row s s' hgrows (h row hrow)
  have hquery {α : Type} (f : Store → α) : (planContract admits).Triple
      (Known fun s => ∀ row ∈ rows, NumberTaken s row) (Worker.query f)
      fun _ => Known fun s => ∀ row ∈ rows, NumberTaken s row :=
    triple_quietProgram hF (quietProgram_workerQuery f)
  split
  · refine Contract.Triple.mono (triple_quietProgram hF ?_) (fun _ hs => hs)
      fun _ _ hs => ⟨hs.1, trivial⟩
    exact quietProgram_run (a := .skip ctx.envelope.jobId) trivial
  refine Contract.Triple.bind (hquery _) fun script => ?_
  split
  · exact Contract.triple_throw
  split
  · exact Contract.triple_throw
  refine Contract.Triple.bind (hquery _) fun anyChapter => ?_
  split
  · exact Contract.triple_throw
  refine Contract.Triple.bind (triple_read_known hF
    (H := fun found s => ∀ pair ∈ found, NumberTaken s pair.1)
    fun s _ htaken pair hpair => htaken _ (fst_mem_of_mem_withParagraphs hpair)) fun found => ?_
  have hfound : Lasts fun s => ∀ pair ∈ found, NumberTaken s pair.1 := fun s s' hgrows h pair hpair =>
    lasts_numberTaken pair.1 s s' hgrows (h pair hpair)
  refine Contract.Triple.bind (triple_quietProgram hfound
    (quietProgram_run (a := .begin ctx.envelope.jobId) trivial)) fun _ => ?_
  refine Contract.Triple.bind (triple_quietProgram hfound (quietProgram_decideRevision ctx _))
    fun _ => ?_
  refine Contract.Triple.bind (triple_quietProgram hfound (quietProgram_newIds _))
    fun newChunkIds => ?_
  refine triple_step hfound fun s s' hs htaken hok => ?_
  obtain ⟨_, s₁, hrevise, hsucceed⟩ := Transaction.bind_eq_ok_iff.mp hok
  have hquiet : Quiet s s' := by
    refine trans_of Quiet (quiet_reviseChunks (fun revision hrevision => ?_) hrevise)
      (quiet_markJobSucceeded _ s₁ _ s' hsucceed)
    obtain ⟨⟨newChunkId, pair⟩, hpair, rfl⟩ := List.mem_map.mp hrevision
    exact htaken pair (List.of_mem_zip hpair).2
  exact ⟨⟨hs.of_quiet hquiet, hquiet.grows⟩, trivial⟩

theorem triple_process (d : WorkerDelivery)
    (hpayload : ∀ payload, d.ctx.envelope.payload ≠ .analyzeScene payload ∧
      d.ctx.envelope.payload ≠ .buildStoryBibleDelta payload) :
    (planContract admits).Triple
      (Known fun s => ∀ payload, d.ctx.envelope.director? = some payload → OnPlan s payload)
      (process d) fun _ => Known fun _ => True := by
  have hF : Lasts fun s =>
      ∀ payload, d.ctx.envelope.director? = some payload → OnPlan s payload :=
    fun s s' hgrows h payload hpayload => (h payload hpayload).grows hgrows
  unfold process
  split
  · exact Contract.triple_throw
  split
  · exact Contract.triple_throw
  refine Contract.Triple.tryCatch hF.stable ?_ fun err => ?_
  · refine Contract.Triple.bind (triple_quietProgram hF (quietProgram_workerHaltIfCancelled _))
      fun halted => ?_
    split
    · exact Contract.triple_pure fun _ hs => ⟨hs.1, trivial⟩
    unfold handleJob
    split
    · next payload heq => exact absurd heq (hpayload payload).1
    · next payload heq => exact absurd heq (hpayload payload).2
    · next payload heq =>
      refine (triple_handleGenerateDirectorIr payload d.ctx).mono
        (fun s hs => ⟨hs.1, hs.2 payload ?_⟩) fun _ _ hs => hs
      rw [Envelope.director?, heq]
    · exact (triple_handleReviseDirectorIr _ _ _ d.ctx).mono (fun _ hs => ⟨hs.1, trivial⟩)
        fun _ _ hs => hs
    · exact (triple_quietProgram hF (quietProgram_handleGenerateTtsChunk _ _)).mono
        (fun _ hs => hs) fun _ _ hs => ⟨hs.1, trivial⟩
    · exact Contract.triple_pure fun _ hs => ⟨hs.1, trivial⟩
  · split <;> exact Contract.triple_throw

end worker

/-! ## Runs -/

section runs

variable {admits : Pipeline.PipelineAccess → Store → Prop} {F : Store → Prop} {G : Unit → Store → Prop}
  {s : Store}

theorem safe_ofService {p : Service Unit}
    (h : (planContract fun a => admits (.api a)).Triple F p G) (hs : F s) :
    (planContract admits).Safe (Pipeline.ofService p) s :=
  have htriple : ((planContract admits).comap Pipeline.PipelineAccess.api).Triple F p G := h
  htriple.relabel.safe hs

theorem safe_ofWorker {p : Worker Unit}
    (h : (planContract fun a => admits (.worker a)).Triple F p G) (hs : F s) :
    (planContract admits).Safe (Pipeline.ofWorker p) s :=
  have htriple : ((planContract admits).comap Pipeline.PipelineAccess.worker).Triple F p G := h
  htriple.relabel.safe hs

theorem respects_planContract (admits : Pipeline.PipelineAccess → Store → Prop) :
    directorSystem.Respects (planContract admits) := by
  rintro s₀ s i hinit hevolves henabled
  have hkept : PlansKept s := (hevolves (NothingDirected.plansKept hinit)).1
  cases i with
  | startDirector bookId body => exact safe_ofService (triple_startDirector bookId body) ⟨hkept, trivial⟩
  | startTts bookId body =>
    exact safe_ofService (triple_quietProgram (F := fun _ => True) lasts_const
      (quietProgram_startTts bookId body)) ⟨hkept, trivial⟩
  | cancelJob jobId =>
    exact safe_ofService (triple_quietProgram (F := fun _ => True) lasts_const
      (quietProgram_cancelJob jobId)) ⟨hkept, trivial⟩
  | pollOnce => exact safe_ofService triple_pollOnce ⟨hkept, trivial⟩
  | deliver d =>
    have henabled : Deliverable d.ctx.envelope s := henabled
    unfold Deliverable at henabled
    refine safe_ofWorker (triple_process d fun payload => ⟨fun heq => ?_, fun heq => ?_⟩)
      ⟨hkept, fun payload hpayload => ?_⟩
    · rw [heq] at henabled
      exact henabled
    · rw [heq] at henabled
      exact henabled
    · unfold Envelope.director? at hpayload
      split at hpayload
      · next heq =>
        cases hpayload
        rw [heq] at henabled
        refine hkept.queue _ henabled _ ?_
        rw [Envelope.director?, heq]
      · cases hpayload

theorem plansKept_of_reachable {c : Config Store Pipeline.PipelineAccess Pipeline.PipelineError}
    (hc : directorSystem.Reachable admits c) : PlansKept c.store := by
  obtain ⟨s₀, hinit, hevolves⟩ := (respects_planContract admits).evolves_of_reachable hc
  exact (hevolves (NothingDirected.plansKept hinit)).1

end runs

/-! ## Completeness -/

section complete

variable {s : Store} {chapterIds : List Id} {chunks chunks' : List PlannedChunk}

theorem Complete.perm (h : Complete s chapterIds chunks) (hperm : chunks'.Perm chunks) :
    Complete s chapterIds chunks' := by
  have hmem {chunk : PlannedChunk} : chunk ∈ chunks' ↔ chunk ∈ chunks := hperm.mem_iff
  refine ⟨⟨fun paragraph hparagraph x h0 hlt => ?_, fun source hsource => ?_⟩, fun chunk hchunk =>
    h.chapter chunk (hmem.mp hchunk), ?_, fun chunk hchunk later hlater =>
      h.spine chunk (hmem.mp hchunk) later (hmem.mp hlater), fun chapterId hchapter => ?_,
    fun chunk hchunk other hother => h.inStep chunk (hmem.mp hchunk) other (hmem.mp hother)⟩
  · rw [← h.covers.1 paragraph hparagraph x h0 hlt]
    exact (((hperm.map _).filter _).map _).countP_eq _
  · exact h.covers.2 source ((hperm.map _).mem_iff.mp hsource)
  · rw [hperm.length_eq]
    exact (hperm.map _).trans h.sequence
  · rw [hperm.countP_eq]
    exact ((hperm.filter _).map _).trans (h.chapterSequence chapterId hchapter)

theorem readingOrder_chaptersToDirect (h : SpineOrdered s) (bookVersionId : Id) (body : StartDirector) :
    ReadingOrder s bookVersionId (chaptersToDirect bookVersionId body s) := by
  have hperm : (chaptersOfVersion bookVersionId s).Perm
      (s.chapters.filter fun c => decide (c.bookVersionId = bookVersionId)) :=
    List.perm_insertionSort _ _
  have hmem : ∀ c ∈ chaptersOfVersion bookVersionId s,
      c ∈ s.chapters ∧ c.bookVersionId = bookVersionId := by
    intro c hc
    obtain ⟨hstored, hversion⟩ := List.mem_filter.mp (hperm.mem_iff.mp hc)
    exact ⟨hstored, of_decide_eq_true hversion⟩
  have hle : (chaptersOfVersion bookVersionId s).Pairwise fun c c' => c.orderIndex ≤ c'.orderIndex :=
    have : IsTrans Chapter fun c c' => c.orderIndex ≤ c'.orderIndex := ⟨fun _ _ _ => le_trans⟩
    have : Std.Total fun c c' : Chapter => c.orderIndex ≤ c'.orderIndex :=
      ⟨fun c c' => le_total c.orderIndex c'.orderIndex⟩
    List.pairwise_insertionSort _ _
  -- two chapters of the version have different numbers
  have hne : (chaptersOfVersion bookVersionId s).Pairwise fun c c' =>
      (c.bookVersionId, c.orderIndex) ≠ (c'.bookVersionId, c'.orderIndex) := by
    have hfilter : ((s.chapters.filter fun c => decide (c.bookVersionId = bookVersionId)).map
        fun c => (c.bookVersionId, c.orderIndex)).Nodup :=
      h.chapterOrder.sublist (List.filter_sublist.map _)
    exact List.pairwise_map.mp ((hperm.map _).nodup_iff.mpr hfilter)
  have hlt : (chaptersOfVersion bookVersionId s).Pairwise fun c c' => c.orderIndex < c'.orderIndex := by
    refine (hle.and hne).imp_of_mem fun {c c'} hc hc' h => lt_of_le_of_ne h.1 fun heq => h.2 ?_
    rw [(hmem c hc).2, (hmem c' hc').2, heq]
  unfold chaptersToDirect
  cases body.scope with
  | chapters =>
    exact ⟨fun c hc => hmem c (List.mem_filter.mp hc).1, hlt.sublist List.filter_sublist⟩
  | book => exact ⟨fun c hc => hmem c (List.mem_filter.mp hc).1, hlt.sublist List.filter_sublist⟩

theorem PlansKept.perm_plan (h : PlansKept s) {script : AudioScript} (hscript : script ∈ s.audioScripts)
    {run : DirectorPayload} (hrun : script.run s = some run)
    (hstored : Stored s script.id run.allChapterIds) :
    ((currentChunksOfScript script.id s).map AudioScriptChunk.planned).Perm
      (plan s run.allChapterIds) := by
  have hmem : ∀ chunk ∈ currentChunksOfScript script.id s,
      chunk ∈ s.audioScriptChunks ∧ chunk.audioScriptId = script.id ∧ chunk.isCurrent := by
    intro chunk hchunk
    obtain ⟨hstored, hown⟩ := List.mem_filter.mp hchunk
    exact ⟨hstored, of_decide_eq_true hown⟩
  have hnodup : ((currentChunksOfScript script.id s).map AudioScriptChunk.planned).Nodup := by
    have hkeys : (currentChunksOfScript script.id s).filterMap Db.chunkSequenceCurrentKey =
        (currentChunksOfScript script.id s).map fun chunk => (script.id, chunk.sequenceIndex) := by
      rw [← List.filterMap_eq_map]
      refine List.filterMap_congr fun chunk hchunk => ?_
      obtain ⟨-, hid, hcurrent⟩ := hmem chunk hchunk
      rw [Db.chunkSequenceCurrentKey, if_pos hcurrent, hid]
      rfl
    have hdistinct :
        ((currentChunksOfScript script.id s).filterMap Db.chunkSequenceCurrentKey).Nodup :=
      h.sequence.sublist (List.filter_sublist.filterMap Db.chunkSequenceCurrentKey)
    rw [hkeys] at hdistinct
    refine List.Nodup.of_map (fun planned => (script.id, planned.sequenceIndex)) ?_
    rw [List.map_map]
    exact hdistinct
  have hplan : (plan s run.allChapterIds).Nodup := by
    refine List.Nodup.of_map PlannedChunk.sequenceIndex ?_
    rw [plan_sequenceIndex]
    exact List.nodup_range
  refine (List.perm_ext_iff_of_nodup hnodup hplan).mpr fun planned => ⟨fun hplanned => ?_,
    fun hplanned => ?_⟩
  · obtain ⟨chunk, hchunk, rfl⟩ := List.mem_map.mp hplanned
    obtain ⟨hchunk, hid, -⟩ := hmem chunk hchunk
    obtain ⟨-, owner, howner, hownerId, run', hrun', hplanned⟩ := h.chunks chunk hchunk
    have heq : owner = script :=
      List.inj_on_of_nodup_map h.scriptIds howner hscript (hownerId.trans hid)
    rw [heq] at hrun'
    cases hrun.symm.trans hrun'
    exact hplanned
  · obtain ⟨chunk, hchunk, hid, hcurrent, rfl⟩ := hstored planned hplanned
    refine List.mem_map_of_mem (List.mem_filter.mpr ⟨hchunk, ?_⟩)
    exact decide_eq_true ⟨hid, hcurrent⟩

theorem PlansKept.chosen (h : PlansKept s) {script : AudioScript} {run : DirectorPayload}
    (hrun : script.run s = some run) : ∃ body : StartDirector,
      run.allChapterIds = (chaptersToDirect run.bookVersionId body s).map Chapter.id := by
  obtain ⟨jobId, -, hrun⟩ := Option.bind_eq_some_iff.mp hrun
  obtain ⟨job, hjob, hrun⟩ := Option.bind_eq_some_iff.mp hrun
  exact (h.jobs job (List.mem_of_find?_eq_some hjob) run hrun).2.chosen

end complete

/-- In every run, whatever is delivered again and in whatever order, a validated script speaks the
chapters that its run was started for, all of them, once and in order. -/
theorem complete_of_validated {c : Config Store Pipeline.PipelineAccess Pipeline.PipelineError}
    (hc : directorSystem.Reachable anyAccess c) {script : AudioScript}
    (hscript : script ∈ c.store.audioScripts) (hvalidated : script.state = .validated) :
    ∃ run, script.run c.store = some run ∧
      (∃ body, run.allChapterIds =
        (chaptersToDirect run.bookVersionId body c.store).map Chapter.id) ∧
      Complete c.store run.allChapterIds
        ((currentChunksOfScript script.id c.store).map AudioScriptChunk.planned) := by
  have hkept := plansKept_of_reachable hc
  obtain ⟨run, hrun, hstored⟩ := hkept.scripts script hscript
  obtain ⟨body, hchosen⟩ := hkept.chosen hrun
  refine ⟨run, hrun, ⟨body, hchosen⟩, ?_⟩
  refine Complete.perm ?_ (hkept.perm_plan hscript hrun (hstored hvalidated))
  rw [hchosen]
  exact complete_plan hkept.text (readingOrder_chaptersToDirect hkept.text _ _)

/-! ## A Book of Two Chapters -/

/-- What starts next makes some accesses, and nothing else happens meanwhile. -/
def inTurn (n accesses : ℕ) (i : DirectorRequest) :
    List (Move DirectorRequest Pipeline.PipelineError) :=
  .spawn i :: List.replicate accesses (.proceed n)

def secondChapterMessage : Envelope where
  jobId := 103
  entityId := some 103
  payload := .generateDirectorIr {
    bookId := 1
    bookVersionId := 2
    audioScriptId := some 101
    directorVersion := 1
    chapterId := 4
    remainingChapterIds := []
    allChapterIds := [3, 4]
    rootJobId := 100
    sequenceIndexStart := 1 }

/-- A user starts the Director, and a worker directs both chapters. -/
def bothChaptersDirected : List (Move DirectorRequest Pipeline.PipelineError) :=
  inTurn 0 8 (.startDirector 1 { scope := .book }) ++
    inTurn 1 13 (.deliver (plainDelivery directedBookMessage 1)) ++
    inTurn 2 11 (.deliver (plainDelivery secondChapterMessage 1))

theorem nothingDirected_twoChapterBook : NothingDirected twoChapterBook := by
  refine ⟨rfl, rfl, rfl, rfl, ?_⟩
  constructor <;> decide

theorem complete_bothChaptersDirected : ∃ c, directorSystem.Reachable anyAccess c ∧
    c.store.audioScripts.map AudioScript.state = [.validated] ∧
    ∀ script ∈ c.store.audioScripts, ∃ run, script.run c.store = some run ∧
      (∃ body, run.allChapterIds =
        (chaptersToDirect run.bookVersionId body c.store).map Chapter.id) ∧
      Complete c.store run.allChapterIds
        ((currentChunksOfScript script.id c.store).map AudioScriptChunk.planned) := by
  have hplay : (directorSystem.playAll anyAccess ⟨twoChapterBook, []⟩ bothChaptersDirected).map
      (fun c => c.store.audioScripts.map AudioScript.state) = some [.validated] := by
    decide +kernel
  obtain ⟨c, hrun, hstates⟩ :=
    System.exists_run_of_playAll (f := fun s : Store => s.audioScripts.map AudioScript.state) hplay
  have hreach : directorSystem.Reachable anyAccess c :=
    ⟨twoChapterBook, nothingDirected_twoChapterBook, hrun⟩
  refine ⟨c, hreach, hstates, fun script hscript => complete_of_validated hreach hscript ?_⟩
  have hmem : script.state ∈ c.store.audioScripts.map AudioScript.state := List.mem_map_of_mem hscript
  rw [hstates] at hmem
  exact List.mem_singleton.mp hmem

end AudioBook
