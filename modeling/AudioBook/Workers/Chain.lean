import AudioBook.Assembly.System
import AudioBook.Concurrent.Retry
import AudioBook.Director.Service
import AudioBook.Workers.Queue

/-!
# The Chain of Chapters

Directing and analysing a book go through its chapters one job at a time: the session that makes
the job of one link `SUCCEEDED` creates the row of the next job, and its message is enqueued
afterwards. A redelivered message of a `SUCCEEDED` job is skipped, and the sweeper only resends
jobs that store their message, so whether a chain survives depends on that one enqueue.

Main results:

- `chainNeverLost_of_unharmed`: in unharmed deliveries no chain is lost.
-/

namespace AudioBook

open Concurrent

/-- An access that some program of a worker made. -/
abbrev WorkerEvent := Event Store WorkerAccess WorkerError

/-- The next job whose row an access creates. -/
def WorkerAccess.child? : WorkerAccess → Option ProcessingJob
  | persistChapter _ _ (.chain child) => some child
  | persistAnalysis _ child => some child
  | integrateDelta _ (.chain child) => some child
  | _ => none

def WorkerAccess.message? : WorkerAccess → Option Envelope
  | enqueue envelope => some envelope
  | _ => none

/-- The access committed the row of the next job, whether or not the worker learned of it. -/
def CreatedChild (x : WorkerEvent) : Prop :=
  x.label.child?.isSome ∧ x.TookEffect ∧ Prog.Commits x.label.session x.store

instance (x : WorkerEvent) : Decidable (CreatedChild x) :=
  inferInstanceAs (Decidable (_ ∧ _ ∧ _))

def CommandPayload.jobType : CommandPayload → JobType
  | analyzeScene _ => .analyzeScene
  | buildStoryBibleDelta _ => .buildStoryBibleDelta
  | generateDirectorIr _ => .generateDirectorIr
  | reviseDirectorIr _ _ _ => .reviseDirectorIr
  | generateTtsChunk _ _ => .generateTtsChunk
  | assembleChapter _ => .assembleChapter
  | assembleAudiobook _ _ => .assembleAudiobook
  | encodeDeliveryFormat _ _ => .encodeDeliveryFormat

/-- A message is the one of a job. -/
def Envelope.IsFor (envelope : Envelope) (job : ProcessingJob) : Prop :=
  envelope.jobId = job.id ∧ envelope.entityId = some job.id ∧ envelope.payload.jobType = job.type

/-- `ProcessingJobSweeper.pollOnce` resends the message of a job, once its row is old enough. -/
def ProcessingJob.Sweepable (job : ProcessingJob) : Prop :=
  job.status = .created ∧ job.queued = false ∧
    ∃ envelope, job.dispatchEnvelope = some envelope ∧ envelope.IsFor job

/-- The access put the message of a job on the broker. -/
def Enqueued (job : ProcessingJob) (y : WorkerEvent) : Prop :=
  y.TookEffect ∧ ∃ envelope ∈ y.label.message?, envelope.IsFor job

/-- What must become of the row of a next job: its message is enqueued in `post`, or the sweeper
finds everything in the row to send it. -/
def ChainGoesOn (_pre : List WorkerEvent) (x : WorkerEvent) (post : List WorkerEvent) : Prop :=
  ∀ child ∈ x.label.child?, child.Sweepable ∨ ∃ y ∈ post, Enqueued child y

/-- The access went well. Of an enqueue only the effect counts. -/
def LinkOk (y : WorkerEvent) : Prop :=
  match y.label with
  | .enqueue _ => y.TookEffect
  | _ => y.fate = .done ∧ Prog.Commits y.label.session y.store

instance (y : WorkerEvent) : Decidable (LinkOk y) := by
  unfold LinkOk
  split <;> infer_instance

/-! ## Deliveries of One Message -/

/-- One delivery of a message to a worker, as it went. -/
abbrev WorkerAttempt := Attempt WorkerDelivery Store WorkerAccess WorkerError Unit

/-- The deliveries of a message, one after the other from a store, where `others` says what the
store can become while the worker does not access it. -/
abbrev WorkerRedelivered (others : Store → Store → Prop) (m : Envelope) :
    Store → List WorkerAttempt → Prop :=
  Retried process others fun d => d.ctx.envelope = m

/-- The chain of a message never ends before its last link: the message of every next job whose
row was committed is enqueued by one of the deliveries, or stored with the row. -/
abbrev ChainNeverLost (attempts : List WorkerAttempt) : Prop :=
  NeverLost CreatedChild ChainGoesOn attempts

/-! ## Accesses That Create No Job -/

section always

variable {P : WorkerAccess → (Store → Store) → Prop}
  (hP : ∀ a w, a.child? = none → w = id ∨ w = Prog.commit a.session → P a w)

include hP

namespace Worker

theorem always_query {α : Type} (f : Store → α) : (query f).Always P :=
  Prog.always_read (hP _ _ rfl (.inl rfl))

theorem always_newIds (n : ℕ) : (newIds n).Always P :=
  ⟨hP _ _ rfl (.inr rfl), fun _ => trivial, fun _ => trivial⟩

theorem always_newId : newId.Always P :=
  ⟨hP _ _ rfl (.inr rfl), fun _ => trivial, fun _ => trivial⟩

theorem always_callModel (n : ℕ) : (callModel n).Always P := by
  induction n with
  | zero => trivial
  | succ n ih => exact Prog.always_bind (Prog.always_read (hP _ _ rfl (.inl rfl))) fun _ => ih

theorem always_run {a : WorkerAccess} (h : a.child? = none) : (run a).Always P :=
  Prog.always_atomically (hP _ _ h (.inr rfl))

end Worker

theorem always_workerHaltIfCancelled (jobId : Id) : (workerHaltIfCancelled jobId).Always P := by
  refine Prog.always_bind (Worker.always_query hP _) fun found => ?_
  split
  · trivial
  split
  · trivial
  have hhalt (cancelled : Bool) : Prog.Always P
      (if ¬ cancelled then pure false else Worker.run (.haltCancelled jobId) >>= fun _ => pure true) := by
    split
    · trivial
    · exact Prog.always_bind (Worker.always_run hP rfl) fun _ => trivial
  split
  · exact hhalt true
  · refine Prog.always_bind ?_ hhalt
    exact Prog.always_tryCatch (Prog.always_read (hP _ _ rfl (.inl rfl))) fun _ => Worker.always_query hP _

theorem always_decideChapter (ctx : JobContext) (n : ℕ) : (decideChapter ctx n).Always P := by
  refine Prog.always_tryCatch (Worker.always_callModel hP n) fun err => ?_
  split
  · exact Prog.always_bind (Worker.always_run hP rfl) fun _ => trivial
  · trivial

theorem always_handleReviseDirectorIr (bookId : Id) (chunkIds : List Id) (directorVersion : ℕ)
    (ctx : JobContext) :
    (handleReviseDirectorIr bookId chunkIds directorVersion ctx).Always P := by
  refine Prog.always_bind (Worker.always_query hP _) fun found => ?_
  split
  · trivial
  split
  · trivial
  refine Prog.always_bind (Worker.always_query hP _) fun rows => ?_
  split
  · exact Worker.always_run hP rfl
  refine Prog.always_bind (Worker.always_query hP _) fun script => ?_
  split
  · trivial
  split
  · trivial
  refine Prog.always_bind (Worker.always_query hP _) fun anyChapter => ?_
  split
  · trivial
  refine Prog.always_bind (Worker.always_query hP _) fun found => ?_
  refine Prog.always_bind (Worker.always_run hP rfl) fun _ => Prog.always_bind ?_ fun _ => ?_
  · refine Prog.always_tryCatch (Worker.always_callModel hP _) fun err => ?_
    split
    · exact Prog.always_bind (Worker.always_run hP rfl) fun _ => trivial
    · trivial
  · exact Prog.always_bind (Worker.always_newIds hP _) fun _ => Worker.always_run hP rfl

theorem always_raiseTtsError (ctx : JobContext) (ttsJobId : Id) (code : TtsErrorCode) :
    (raiseTtsError ctx ttsJobId code).Always P := by
  rw [raiseTtsError]
  split
  · exact Prog.always_bind (Worker.always_run hP rfl) fun _ => trivial
  · trivial

theorem always_handleGenerateTtsChunk (ttsJobId : Id) (ctx : JobContext) :
    (handleGenerateTtsChunk ttsJobId ctx).Always P := by
  refine Prog.always_bind (Worker.always_query hP _) fun found => ?_
  split
  · trivial
  split
  · trivial
  refine Prog.always_bind (Worker.always_query hP _) fun ttsJob => ?_
  split
  · trivial
  split
  · exact Worker.always_run hP rfl
  refine Prog.always_bind (Worker.always_query hP _) fun chunk => ?_
  split
  · trivial
  refine Prog.always_bind (Worker.always_query hP _) fun existing => ?_
  split
  · exact Worker.always_run hP rfl
  refine Prog.always_bind (Worker.always_query hP _) fun voiceVersion => ?_
  split
  · trivial
  split
  · trivial
  split
  · trivial
  split
  · trivial
  refine Prog.always_bind (Worker.always_query hP _) fun script => ?_
  split
  · trivial
  refine Prog.always_bind (Worker.always_run hP rfl) fun _ => ?_
  refine Prog.always_bind ?_ fun _ => Prog.always_bind ?_ fun _ => ?_
  · exact Prog.always_tryCatch (Prog.always_read (hP _ _ rfl (.inl rfl))) fun _ => always_raiseTtsError hP _ _ _
  · exact Prog.always_tryCatch (Prog.always_read (hP _ _ rfl (.inl rfl))) fun _ => always_raiseTtsError hP _ _ _
  · exact Prog.always_bind (Worker.always_newId hP) fun _ => Worker.always_run hP rfl

end always

/-! ## The Links Go On -/

section settles

theorem ChainGoesOn.mono {es₁ es₂ pre post : List WorkerEvent} {x : WorkerEvent}
    (h : ChainGoesOn pre x post) : ChainGoesOn (es₁ ++ pre) x (post ++ es₂) := by
  intro child hchild
  refine (h child hchild).imp_right ?_
  rintro ⟨y, hy, henqueued⟩
  exact ⟨y, List.mem_append_left _ hy, henqueued⟩

theorem not_createdChild_of_none (a : WorkerAccess) (w : Store → Store) (h : a.child? = none)
    (_hw : w = id ∨ w = Prog.commit a.session) (x : WorkerEvent) (hlabel : x.label = a) : ¬ CreatedChild x := by
  rintro ⟨hchild, -⟩
  rw [hlabel, h] at hchild
  cases hchild

theorem settles_of_childless {α : Type} {p : Worker α}
    (h : p.Always fun a _ => ∀ x : WorkerEvent, x.label = a → ¬ CreatedChild x) :
    p.Settles CreatedChild LinkOk ChainGoesOn :=
  Prog.settles_of_always h

theorem LinkOk.commits {a : WorkerAccess} {x : WorkerEvent} (hchild : a.child?.isSome)
    (hlabel : x.label = a) (h : LinkOk x) : x.fate = .done ∧ Prog.Commits a.session x.store := by
  subst hlabel
  unfold LinkOk at h
  split at h
  · next heq =>
    rw [heq] at hchild
    cases hchild
  · exact h

theorem LinkOk.done_of_query {x : WorkerEvent} (hlabel : x.label = .query) (h : LinkOk x) :
    x.fate = .done := by
  simp only [LinkOk, hlabel] at h
  exact h.1

variable {es : List WorkerEvent} {r : Ending WorkerError Unit}

theorem enqueued_of_trace {job : ProcessingJob} {envelope : Envelope} (hfor : envelope.IsFor job)
    (h : (Worker.run (.enqueue envelope)).Trace es r) (hr : r ≠ .crashed)
    (hok : ∀ y ∈ es, LinkOk y) : ∃ y ∈ es, Enqueued job y := by
  rcases Prog.trace_atomically h with ⟨-, hcrash⟩ | ⟨s, fate, rfl, -⟩
  · exact absurd hcrash hr
  · have heffect : LinkOk ⟨.enqueue envelope, s, fate⟩ := hok _ List.mem_cons_self
    exact ⟨_, List.mem_cons_self, heffect, envelope, rfl, hfor⟩

theorem enqueued_of_query_trace {α : Type} {f : Store → α} {job : ProcessingJob}
    {envelope : Envelope} (hfor : envelope.IsFor job)
    (h : (Worker.query f >>= fun _ => Worker.run (.enqueue envelope)).Trace es r)
    (hr : r ≠ .crashed) (hok : ∀ y ∈ es, LinkOk y) : ∃ y ∈ es, Enqueued job y := by
  rcases Prog.trace_bind h with ⟨a, es₁, es₂, rfl, -, h₂⟩ | ⟨e, rfl, h₁⟩ | ⟨rfl, -⟩
  · obtain ⟨y, hy, henqueued⟩ :=
      enqueued_of_trace hfor h₂ hr fun y hy => hok y (List.mem_append_right _ hy)
    exact ⟨y, List.mem_append_right _ hy, henqueued⟩
  · -- The query raised, so it was not answered.
    rcases Prog.trace_read h₁ with ⟨-, hcrash⟩ | ⟨s, fate, rfl, -, hraise⟩
    · cases hcrash
    · have hdone : fate = .done :=
        LinkOk.done_of_query (x := ⟨.query, s, fate⟩) rfl (hok _ List.mem_cons_self)
      exact absurd rfl (hraise hdone e)
  · exact absurd rfl hr

theorem settles_link {a : WorkerAccess} {child : ProcessingJob} (hchild : a.child? = some child)
    {next : Worker Unit}
    (halways : next.Always fun l _ => ∀ x : WorkerEvent, x.label = l → ¬ CreatedChild x)
    (henqueued : ∀ {es r}, next.Trace es r → r ≠ .crashed → (∀ y ∈ es, LinkOk y) →
      ∃ y ∈ es, Enqueued child y) :
    (Worker.run a >>= fun _ => next).Settles CreatedChild LinkOk ChainGoesOn := by
  apply Prog.settles_atomically_bind
  · exact fun x hlabel h => h.commits (by simp [hchild]) hlabel
  · exact fun _ => halways
  · intro x es _ r hlabel htrace hr hok child' hchild'
    rw [hlabel, hchild, Option.mem_some_iff] at hchild'
    subst hchild'
    exact .inr (henqueued htrace hr hok)

theorem settles_storeChapter (ctx : JobContext) (payload : DirectorPayload) (audioScriptId : Id)
    (chunks : List BuiltChunk) :
    (storeChapter ctx payload audioScriptId chunks).Settles CreatedChild LinkOk ChainGoesOn := by
  have hP := not_createdChild_of_none
  rw [storeChapter]
  split
  · exact settles_of_childless (Worker.always_run hP rfl)
  · refine Prog.settles_bind ChainGoesOn.mono (settles_of_childless (Worker.always_newId hP))
      fun nextJobId => ?_
    exact settles_link rfl (Worker.always_run hP rfl) (enqueued_of_trace ⟨rfl, rfl, rfl⟩)

theorem settles_handleGenerateDirectorIr (payload : DirectorPayload) (ctx : JobContext) :
    (handleGenerateDirectorIr payload ctx).Settles CreatedChild LinkOk ChainGoesOn := by
  have hP := not_createdChild_of_none
  have hquery {α : Type} (f : Store → α) := settles_of_childless (Worker.always_query hP f)
  refine Prog.settles_bind ChainGoesOn.mono (hquery _) fun found => ?_
  split
  · exact Prog.settles_throw _
  split
  · exact Prog.settles_pure _
  refine Prog.settles_bind ChainGoesOn.mono (hquery _) fun chapter => ?_
  split
  · exact Prog.settles_throw _
  split
  · exact Prog.settles_throw _
  refine Prog.settles_bind ChainGoesOn.mono (hquery _) fun book => ?_
  split
  · exact Prog.settles_throw _
  refine Prog.settles_bind ChainGoesOn.mono (hquery _) fun paragraphs => ?_
  refine Prog.settles_bind ChainGoesOn.mono (settles_of_childless (Worker.always_newId hP))
    fun newScriptId => ?_
  refine Prog.settles_bind ChainGoesOn.mono (settles_of_childless (Worker.always_run hP rfl))
    fun _ => ?_
  refine Prog.settles_bind ChainGoesOn.mono (settles_of_childless (always_decideChapter hP _ _))
    fun _ => ?_
  refine Prog.settles_bind ChainGoesOn.mono (settles_of_childless (Worker.always_newIds hP _))
    fun chunkIds => ?_
  exact settles_storeChapter ctx payload _ _

theorem settles_handleAnalyzeScene (payload : AnalysisPayload) (ctx : JobContext) :
    (handleAnalyzeScene payload ctx).Settles CreatedChild LinkOk ChainGoesOn := by
  have hP := not_createdChild_of_none
  have hquery {α : Type} (f : Store → α) := settles_of_childless (Worker.always_query hP f)
  refine Prog.settles_bind ChainGoesOn.mono (hquery _) fun found => ?_
  split
  · exact Prog.settles_throw _
  split
  · exact Prog.settles_pure _
  refine Prog.settles_bind ChainGoesOn.mono (hquery _) fun chapter => ?_
  refine Prog.settles_bind ChainGoesOn.mono (hquery _) fun bookVersion => ?_
  split
  · exact Prog.settles_throw _
  split
  · exact Prog.settles_throw _
  refine Prog.settles_bind ChainGoesOn.mono (settles_of_childless (Worker.always_run hP rfl))
    fun _ => ?_
  refine Prog.settles_bind ChainGoesOn.mono (settles_of_childless ?_) fun _ => ?_
  · refine Prog.always_tryCatch (Worker.always_callModel hP 1) fun err => ?_
    split
    · exact Prog.always_bind (Worker.always_run hP rfl) fun _ => trivial
    · trivial
  refine Prog.settles_bind ChainGoesOn.mono (settles_of_childless (Worker.always_newId hP))
    fun newVersionId => ?_
  refine Prog.settles_bind ChainGoesOn.mono (settles_of_childless (Worker.always_newId hP))
    fun nextJobId => ?_
  exact settles_link rfl (Worker.always_run hP rfl) (enqueued_of_trace ⟨rfl, rfl, rfl⟩)

theorem settles_handleBuildStoryBibleDelta (payload : AnalysisPayload) (ctx : JobContext) :
    (handleBuildStoryBibleDelta payload ctx).Settles CreatedChild LinkOk ChainGoesOn := by
  have hP := not_createdChild_of_none
  have hquery {α : Type} (f : Store → α) := settles_of_childless (Worker.always_query hP f)
  refine Prog.settles_bind ChainGoesOn.mono (hquery _) fun found => ?_
  split
  · exact Prog.settles_pure _
  split
  · exact Prog.settles_pure _
  refine Prog.settles_bind ChainGoesOn.mono (hquery _) fun _ => ?_
  split
  · exact settles_of_childless (Worker.always_run hP rfl)
  refine Prog.settles_bind ChainGoesOn.mono (hquery _) fun nextChapter => ?_
  split
  · exact Prog.settles_throw _
  refine Prog.settles_bind ChainGoesOn.mono (settles_of_childless (Worker.always_newId hP))
    fun nextJobId => ?_
  refine settles_link rfl ?_ (enqueued_of_query_trace ⟨rfl, rfl, rfl⟩)
  exact Prog.always_bind (Worker.always_query hP _) fun _ => Worker.always_run hP rfl

theorem settles_process (d : WorkerDelivery) :
    (process d).Settles CreatedChild LinkOk ChainGoesOn := by
  have hP := not_createdChild_of_none
  rw [process]
  split
  · exact Prog.settles_throw _
  split
  · exact Prog.settles_throw _
  refine Prog.settles_tryCatch ChainGoesOn.mono ?_ fun err => ?_
  · refine Prog.settles_bind ChainGoesOn.mono
      (settles_of_childless (always_workerHaltIfCancelled hP _)) fun halted => ?_
    split
    · exact Prog.settles_pure _
    rw [handleJob]
    split
    · exact settles_handleAnalyzeScene _ _
    · exact settles_handleBuildStoryBibleDelta _ _
    · exact settles_handleGenerateDirectorIr _ _
    · exact settles_of_childless (always_handleReviseDirectorIr hP _ _ _ _)
    · exact settles_of_childless (always_handleGenerateTtsChunk hP _ _)
    · exact Prog.settles_pure _
  · split
    · exact Prog.settles_throw _
    · exact Prog.settles_throw _

end settles

/-- If nothing fails from the commit of a next job's row to its enqueue, in every delivery of a
message in which there is such a commit, the chain is never lost. -/
theorem chainNeverLost_of_unharmed {others : Store → Store → Prop} {m : Envelope} {s : Store}
    {attempts : List WorkerAttempt} (h : WorkerRedelivered others m s attempts)
    (hunharmed : ∀ attempt ∈ attempts, attempt.Unharmed CreatedChild LinkOk) :
    ChainNeverLost attempts := by
  apply Retried.neverLost_of_unharmed h
  · exact fun d _ => settles_process d
  · exact hunharmed

/-! ## A Lost Chapter -/

/-- A delivery in which the worker makes `n` accesses and then crashes, unless it is done. -/
def workerDeliveryOf (d : WorkerDelivery) (s : Store) (n : ℕ) : WorkerAttempt × Store :=
  let run := (process d).execute s (List.replicate n .done)
  (⟨d, run.1, run.2.1⟩, run.2.2)

theorem runs_workerDeliveryOf (d : WorkerDelivery) (s : Store) (n : ℕ) :
    (process d).Runs Eq s (workerDeliveryOf d s n).1.events (workerDeliveryOf d s n).1.ending
      (workerDeliveryOf d s n).2 :=
  Prog.runs_execute (fun _ => rfl) _ s _

/-- The first delivery of the message of the first chapter, and how many accesses it makes. -/
def firstLinkDelivery (n : ℕ) : WorkerAttempt × Store :=
  workerDeliveryOf (plainDelivery directedBookMessage 1) directedBook n

/-- The second delivery, after a first one of `n` accesses. -/
def secondLinkDelivery (n : ℕ) : WorkerAttempt × Store :=
  workerDeliveryOf (plainDelivery directedBookMessage 2) (firstLinkDelivery n).2 20

theorem workerRedelivered_twice (n : ℕ) :
    WorkerRedelivered Eq directedBookMessage directedBook
      [(firstLinkDelivery n).1, (secondLinkDelivery n).1] :=
  .cons rfl (runs_workerDeliveryOf _ _ _) (.cons rfl (runs_workerDeliveryOf _ _ _) (.nil _))

/-- Nothing goes wrong: the first chapter is directed, and its message delivered once more. -/
theorem chainNeverLost_of_unharmed_uneventful :
    ChainNeverLost [(firstLinkDelivery 20).1, (secondLinkDelivery 20).1] := by
  refine chainNeverLost_of_unharmed (workerRedelivered_twice 20) ?_
  have h : ∀ attempt ∈ [(firstLinkDelivery 20).1, (secondLinkDelivery 20).1],
      (∀ y ∈ attempt.events, LinkOk y) ∧ attempt.ending ≠ .crashed := by decide +kernel
  exact fun attempt hattempt => Attempt.Faultless.unharmed (h attempt hattempt)

/-- The worker crashes right after it stored the first chapter and created the job of the second;
the message is delivered again, nothing fails this time, and the second chapter is never
enqueued, nor does its row store the message. -/
theorem not_forall_chainNeverLost :
    ¬ ∀ (others : Store → Store → Prop) (m : Envelope) (s : Store) (attempts : List WorkerAttempt)
        (last : WorkerAttempt), WorkerRedelivered others m s (attempts ++ [last]) →
        last.Faultless LinkOk → ChainNeverLost (attempts ++ [last]) := by
  intro hclaim
  have hfaultless : (∀ y ∈ (secondLinkDelivery 12).1.events, LinkOk y) ∧
      (secondLinkDelivery 12).1.ending ≠ .crashed := by decide +kernel
  have hlost := hclaim _ _ _ [(firstLinkDelivery 12).1] _ (workerRedelivered_twice 12) hfaultless
  -- The first delivery ends with the commit of the next job's row.
  have hlast : ∀ x ∈ (firstLinkDelivery 12).1.events.drop 11, CreatedChild x ∧
      ∀ child ∈ x.label.child?, child.dispatchEnvelope = none := by decide +kernel
  obtain ⟨x, hx⟩ : ∃ x, (firstLinkDelivery 12).1.events.drop 11 = [x] :=
    List.length_eq_one_iff.mp (by decide +kernel)
  obtain ⟨hcreated, hunsent⟩ := hlast x (by simp [hx])
  have hsplit : (firstLinkDelivery 12).1.events
      = (firstLinkDelivery 12).1.events.take 11 ++ [x] := by
    rw [← hx, List.take_append_drop]
  obtain ⟨child, hchild⟩ := Option.isSome_iff_exists.mp hcreated.1
  have hsweep : ¬ child.Sweepable := by
    rintro ⟨-, -, envelope, henvelope, -⟩
    simp [hunsent child hchild] at henvelope
  -- The second delivery puts nothing on the broker.
  have hsilent : ∀ y ∈ (secondLinkDelivery 12).1.events, y.label.message? = none := by
    decide +kernel
  rcases hlost _ [(secondLinkDelivery 12).1] (List.suffix_refl _) _ x [] hsplit hcreated with
    hgoes | ⟨attempt, hattempt, hgoes⟩
  · rcases hgoes child hchild with h | ⟨y, hy, -⟩
    · exact hsweep h
    · cases hy
  · obtain rfl := List.mem_singleton.mp hattempt
    rcases hgoes child hchild with h | ⟨y, hy, -, envelope, henvelope, -⟩
    · exact hsweep h
    · simp [hsilent y hy] at henvelope

end AudioBook
