import AudioBook.Assembly.Steps
import AudioBook.Pipeline.System
import AudioBook.Workers.Chain

/-!
# The Steps of the Pipeline

Every access of every program of the pipeline runs the transaction of its label, or leaves the
store alone.

- `Faithful`: an access with the effect of its label.
- `always_program`: all accesses are.
-/

namespace AudioBook.Pipeline

open Relational Concurrent

/-! ## Encoding -/

section encode

theorem sound_of_plain (a : Access) (w : Store → Store) (h : a.Plain w) : a.Sound w := h.2.2

theorem always_encodeMp3PerChapter (audiobookId : Id) (chapters : List AudiobookChapter) :
    (encodeMp3PerChapter audiobookId chapters).Always Access.Sound := by
  induction chapters with
  | nil => trivial
  | cons chapter chapters ih =>
      refine Prog.always_bind (always_query sound_of_plain _) fun existing => ?_
      split
      · refine Prog.always_bind (always_external sound_of_plain) fun _ => ?_
        exact Prog.always_bind ((always_upsertRendition _ _ _).mono fun _ _ h => h.1) fun _ => ih
      · exact ih

theorem always_encodeDeliveryFormat (job : ProcessingJob) (audiobook : Audiobook)
    (format : DeliveryFormat) :
    (encodeDeliveryFormat job audiobook format).Always Access.Sound := by
  have hupsert := (always_upsertRendition audiobook.id format none).mono fun _ _ h => h.1
  have hfinish : (do
      perform (.markSucceeded job.id .running)
      maybePublishAudiobook audiobook : Service Unit).Always Access.Sound :=
    Prog.always_bind (Prog.always_atomically ⟨by simp [Access.Checked], .inr rfl⟩) fun _ =>
      always_maybePublishAudiobook _
  refine Prog.always_bind (always_external sound_of_plain) fun _ => ?_
  split
  · exact Prog.always_bind (always_encodeMp3PerChapter _ _) fun _ => hfinish
  · refine Prog.always_bind ?_ fun _ => hfinish
    exact Prog.always_bind (always_external sound_of_plain) fun _ => hupsert

theorem always_processEncodeDeliveryFormatJob (audiobookId : Id) (format : DeliveryFormat)
    (d : Delivery) :
    (processEncodeDeliveryFormatJob audiobookId format d).Always Access.Sound := by
  rw [processEncodeDeliveryFormatJob]
  split
  · trivial
  refine Prog.always_bind (always_query sound_of_plain _) fun found => ?_
  split
  · trivial
  next job =>
  split
  · trivial
  next hjob =>
  have hseen : job.status ∉ [.succeeded, .failed] := by simpa using hjob
  refine Prog.always_bind (always_query sound_of_plain _) fun audiobook => ?_
  split
  · trivial
  refine Prog.always_bind (always_query sound_of_plain _) fun ready => ?_
  split
  · refine Prog.always_bind (Prog.always_atomically ⟨hseen, .inr rfl⟩) fun _ => ?_
    exact Prog.always_bind (always_maybePublishAudiobook _) fun _ => trivial
  refine Prog.always_bind (Prog.always_atomically ⟨hseen, .inr rfl⟩) fun _ => ?_
  refine Prog.always_tryCatch (always_encodeDeliveryFormat _ _ _) fun err => ?_
  exact Prog.always_bind (always_handleEncodeFailure sound_of_plain _ _ _ _ _) fun _ => trivial

theorem always_deliver (computeManifestHash : List (Id × Hash) → Hash) (d : Delivery) :
    (deliver computeManifestHash d).Always Access.Sound := by
  refine Prog.always_bind (always_haltIfCancelled sound_of_plain _) fun halted => ?_
  split
  · trivial
  split
  · exact always_processAssembleChapterJob (fun _ _ h => h.2) _ _ _
  · exact always_processAssembleAudiobookJob (fun _ _ h => h.2) _ _ _
  · exact always_processEncodeDeliveryFormatJob _ _ _
  · trivial

theorem always_assembly (computeManifestHash : List (Id × Hash) → Hash) (i : AssemblyRequest) :
    ((assemblySystem computeManifestHash).program i).Always Access.Sound := by
  cases i with
  | startAssembly bookId body => exact always_startAssembly sound_of_plain _ _ _
  | cancelJob jobId => exact always_cancelJob sound_of_plain _
  | deliver d => exact always_deliver _ d
  | pollOnce => exact always_pollOnce sound_of_plain
  | insertChunks chunks => exact Prog.always_atomically ⟨trivial, .inr rfl⟩
  | insertAudioChunk new => exact Prog.always_atomically ⟨trivial, .inr rfl⟩

end encode

/-! ## Starting a Stage -/

section start

variable (bookId : Id)

theorem always_startAnalysis (body : StartAnalysis) :
    (AudioBook.startAnalysis bookId body).Always Access.Sound := by
  refine Prog.always_bind (always_query sound_of_plain _) fun found => ?_
  split
  · trivial
  split
  · trivial
  refine Prog.always_bind (always_query sound_of_plain _) fun version => ?_
  split
  · trivial
  refine Prog.always_bind (always_query sound_of_plain _) fun running => ?_
  split
  · trivial
  refine Prog.always_bind (always_query sound_of_plain _) fun chapters => ?_
  split
  · trivial
  split
  · trivial
  refine Prog.always_bind (always_freshId sound_of_plain) fun jobId => ?_
  refine Prog.always_bind (Prog.always_atomically ⟨?_, .inr rfl⟩) fun _ =>
    always_enqueueProcessingJob sound_of_plain _
  rintro job hjob
  rw [List.mem_singleton.mp hjob]
  rfl

theorem always_startDirector (body : StartDirector) :
    (AudioBook.startDirector bookId body).Always Access.Sound := by
  refine Prog.always_bind (always_query sound_of_plain _) fun found => ?_
  split
  · trivial
  split
  · trivial
  split
  · trivial
  refine Prog.always_bind (always_query sound_of_plain _) fun running => ?_
  split
  · trivial
  refine Prog.always_bind (always_query sound_of_plain _) fun chapters => ?_
  split
  · trivial
  split
  · trivial
  refine Prog.always_bind (always_query sound_of_plain _) fun current => ?_
  split
  · trivial
  refine Prog.always_bind (always_freshId sound_of_plain) fun jobId => ?_
  refine Prog.always_bind (Prog.always_atomically ⟨?_, .inr rfl⟩) fun _ =>
    always_enqueueProcessingJob sound_of_plain _
  rintro job hjob
  rw [List.mem_singleton.mp hjob]
  rfl

theorem always_planTts (body : StartTts) : (planTts bookId body).Always Access.Sound := by
  refine Prog.always_bind (always_query sound_of_plain _) fun book => ?_
  split
  · trivial
  split
  · trivial
  refine Prog.always_bind (always_query sound_of_plain _) fun script => ?_
  split
  · trivial
  split
  · trivial
  split
  · trivial
  refine Prog.always_bind (always_query sound_of_plain _) fun chunks => ?_
  split
  · trivial
  refine Prog.always_bind (always_query sound_of_plain _) fun targetable => ?_
  split
  · trivial
  split
  · trivial
  split <;> trivial

theorem always_startTts (body : StartTts) :
    (AudioBook.startTts bookId body).Always Access.Sound := by
  refine Prog.always_bind (always_planTts _ _) fun plan => ?_
  split
  · trivial
  · refine Prog.always_bind (always_freshId sound_of_plain) fun _ =>
      Prog.always_bind (always_freshIdsFor sound_of_plain _) fun _ =>
        Prog.always_bind (always_freshIdsFor sound_of_plain _) fun _ => ?_
    exact Prog.always_bind (Prog.always_atomically ⟨trivial, .inr rfl⟩) fun _ =>
      always_enqueueAll sound_of_plain _

end start

/-! ## The Workers -/

section workers

/-- The access runs the session of its label, or leaves the store alone. -/
def RunsSession (a : WorkerAccess) (w : Store → Store) : Prop :=
  w = id ∨ w = Prog.commit a.session

theorem runsSession_of_childless (a : WorkerAccess) (w : Store → Store) (_ : a.child? = none)
    (h : w = id ∨ w = Prog.commit a.session) : RunsSession a w := h

theorem always_run (a : WorkerAccess) : (Worker.run a).Always RunsSession :=
  Prog.always_atomically (.inr rfl)

theorem always_handleGenerateDirectorIr (payload : DirectorPayload) (ctx : JobContext) :
    (handleGenerateDirectorIr payload ctx).Always RunsSession := by
  have hP := runsSession_of_childless
  refine Prog.always_bind (Worker.always_query hP _) fun found => ?_
  split
  · trivial
  split
  · trivial
  refine Prog.always_bind (Worker.always_query hP _) fun chapter => ?_
  split
  · trivial
  split
  · trivial
  refine Prog.always_bind (Worker.always_query hP _) fun book => ?_
  split
  · trivial
  refine Prog.always_bind (Worker.always_query hP _) fun paragraphs =>
    Prog.always_bind (Worker.always_newId hP) fun _ =>
      Prog.always_bind (always_run _) fun _ =>
        Prog.always_bind (always_decideChapter hP _ _) fun _ =>
          Prog.always_bind (Worker.always_newIds hP _) fun _ => ?_
  rw [storeChapter]
  split
  · exact always_run _
  · exact Prog.always_bind (Worker.always_newId hP) fun _ =>
      Prog.always_bind (always_run _) fun _ => always_run _

theorem always_handleAnalyzeScene (payload : AnalysisPayload) (ctx : JobContext) :
    (handleAnalyzeScene payload ctx).Always RunsSession := by
  have hP := runsSession_of_childless
  refine Prog.always_bind (Worker.always_query hP _) fun found => ?_
  split
  · trivial
  split
  · trivial
  refine Prog.always_bind (Worker.always_query hP _) fun chapter =>
    Prog.always_bind (Worker.always_query hP _) fun version => ?_
  split
  · trivial
  split
  · trivial
  refine Prog.always_bind (always_run _) fun _ => Prog.always_bind ?_ fun _ =>
    Prog.always_bind (Worker.always_newId hP) fun _ =>
      Prog.always_bind (Worker.always_newId hP) fun _ =>
        Prog.always_bind (always_run _) fun _ => always_run _
  refine Prog.always_tryCatch (Worker.always_callModel hP 1) fun err => ?_
  split
  · exact Prog.always_bind (always_run _) fun _ => trivial
  · trivial

theorem always_handleBuildStoryBibleDelta (payload : AnalysisPayload) (ctx : JobContext) :
    (handleBuildStoryBibleDelta payload ctx).Always RunsSession := by
  have hP := runsSession_of_childless
  refine Prog.always_bind (Worker.always_query hP _) fun found => ?_
  split
  · trivial
  split
  · trivial
  refine Prog.always_bind (Worker.always_query hP _) fun _ => ?_
  split
  · exact always_run _
  refine Prog.always_bind (Worker.always_query hP _) fun chapter => ?_
  have hchain (nextJobId : Id) (child : ProcessingJob) (envelope : Envelope) :
      (do
        Worker.run (.integrateDelta ctx.envelope.jobId (.chain child))
        let _ ← Worker.query (findChapter nextJobId)
        Worker.run (.enqueue envelope) : Worker Unit).Always RunsSession :=
    Prog.always_bind (always_run _) fun _ =>
      Prog.always_bind (Worker.always_query hP _) fun _ => always_run _
  split
  · trivial
  · exact Prog.always_bind (Worker.always_newId hP) fun _ => hchain _ _ _

theorem always_process (d : WorkerDelivery) : (process d).Always RunsSession := by
  have hP := runsSession_of_childless
  rw [process]
  split
  · trivial
  split
  · trivial
  refine Prog.always_tryCatch ?_ fun err => ?_
  · refine Prog.always_bind (always_workerHaltIfCancelled hP _) fun halted => ?_
    split
    · trivial
    rw [handleJob]
    split
    · exact always_handleAnalyzeScene _ _
    · exact always_handleBuildStoryBibleDelta _ _
    · exact always_handleGenerateDirectorIr _ _
    · exact always_handleReviseDirectorIr hP _ _ _ _
    · exact always_handleGenerateTtsChunk hP _ _
    · trivial
  · split <;> trivial

end workers

/-! ## All Programs -/

/-- The access runs the transaction of its label, or leaves the store alone. -/
def Faithful (a : PipelineAccess) (w : Store → Store) : Prop := w = id ∨ w = a.effect

theorem always_ofService {p : Service Unit} (h : p.Always Access.Sound) :
    (ofService p).Always Faithful :=
  Prog.always_relabel (h.mono fun _ _ hsound => hsound.2)

theorem always_program (computeManifestHash : List (Id × Hash) → Hash) (i : PipelineRequest) :
    ((pipelineSystem computeManifestHash).program i).Always Faithful := by
  have hquery {α : Type} (f : Store → α) : (queryBook f).Always Faithful :=
    Prog.always_read (.inl rfl)
  have hupdate (bookId : Id) : (updateDeletedAt (.softDelete bookId) (setDeletedAt bookId true)).Always
      Faithful ∧ (updateDeletedAt (.restore bookId) (setDeletedAt bookId false)).Always Faithful := by
    constructor
    · refine ⟨.inr rfl, fun s => ?_, fun _ => trivial⟩
      dsimp only
      split <;> trivial
    · refine ⟨.inr rfl, fun s => ?_, fun _ => trivial⟩
      dsimp only
      split <;> trivial
  cases i with
  | startAnalysis bookId body => exact always_ofService (always_startAnalysis _ _)
  | startDirector bookId body => exact always_ofService (always_startDirector _ _)
  | startTts bookId body => exact always_ofService (always_startTts _ _)
  | assembly i => exact always_ofService (always_assembly _ i)
  | deliver d => exact Prog.always_relabel (always_process d)
  | deleteBook bookId =>
      refine Prog.always_bind (hquery _) fun found => ?_
      split
      · trivial
      split
      · trivial
      refine Prog.always_bind (hquery _) fun count => ?_
      split
      · trivial
      · exact (hupdate bookId).1
  | restoreBook bookId =>
      refine Prog.always_bind (hquery _) fun found => ?_
      split
      · trivial
      split
      · trivial
      · exact (hupdate bookId).2

end AudioBook.Pipeline
