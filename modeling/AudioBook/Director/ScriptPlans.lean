import AudioBook.Director.Runs

/-!
# Scripts Follow Their Plans

A run is one chain of messages, each with the counter at which its chapter starts. Whatever is
delivered again, and in whatever order, what is stored under a script is a part of the plan of its
run, and a message never promises more than what is stored.

Main results:

- `PlansKept.of_quiet` and one lemma for each access that is not quiet: every access keeps the plans.
-/

namespace AudioBook

open Relational Concurrent

/-! ## What a Run Promises -/

/-- A payload is the first one of the run that a job started, over the chapters that a request
chose. -/
structure IsRoot (s : Store) (jobId : Id) (run : DirectorPayload) : Prop where
  rootJobId : run.rootJobId = jobId
  audioScriptId : run.audioScriptId = none
  sequenceIndexStart : run.sequenceIndexStart = 0
  allChapterIds : run.allChapterIds = run.chapterId :: run.remainingChapterIds
  chosen : ∃ body : StartDirector,
    run.allChapterIds = (chaptersToDirect run.bookVersionId body s).map Chapter.id

/-- All chunks of the plan of some chapters are stored under a script. -/
def Stored (s : Store) (audioScriptId : Id) (chapterIds : List Id) : Prop :=
  ∀ planned ∈ plan s chapterIds, ∃ chunk ∈ s.audioScriptChunks,
    chunk.audioScriptId = audioScriptId ∧ chunk.isCurrent ∧ chunk.planned = planned

/-- A script was created by the run of a job. -/
def HasScript (s : Store) (audioScriptId rootJobId : Id) : Prop :=
  ∃ script ∈ s.audioScripts, script.id = audioScriptId ∧ script.jobId = some rootJobId

/-- The chapters of a run that a message leaves behind it, for a script or for one to be created. -/
structure Position (s : Store) (payload : DirectorPayload) (before : List Id) : Prop where
  chapters : payload.allChapterIds = before ++ payload.chapterId :: payload.remainingChapterIds
  start : payload.sequenceIndexStart = (plan s before).length
  fresh : payload.audioScriptId = none → before = []
  stored : ∀ audioScriptId, payload.audioScriptId = some audioScriptId →
    HasScript s audioScriptId payload.rootJobId ∧ Stored s audioScriptId before

/-- A message continues its run where the stored chapters end. -/
structure OnPlan (s : Store) (payload : DirectorPayload) : Prop where
  run : ∃ run, runOf payload.rootJobId s = some run ∧ payload.bookId = run.bookId ∧
    payload.bookVersionId = run.bookVersionId ∧ payload.allChapterIds = run.allChapterIds
  position : ∃ before, Position s payload before

/-- The chunk is a planned one of its script. -/
def InPlan (s : Store) (chunk : AudioScriptChunk) : Prop :=
  chunk.isCurrent ∧ ∃ script ∈ s.audioScripts, script.id = chunk.audioScriptId ∧
    ∃ run, script.run s = some run ∧ chunk.planned ∈ plan s run.allChapterIds

/-- The script has a run, and is validated only when all of its plan is stored. -/
def ScriptKept (s : Store) (script : AudioScript) : Prop :=
  ∃ run, script.run s = some run ∧
    (script.state = .validated → Stored s script.id run.allChapterIds)

/-- Everything follows the plans. -/
structure PlansKept (s : Store) : Prop where
  text : SpineOrdered s
  jobs : ∀ job ∈ s.processingJobs, ∀ run, job.director? = some run →
    runOf job.id s = some run ∧ IsRoot s job.id run
  queue : ∀ m ∈ s.queue, ∀ payload, m.director? = some payload → OnPlan s payload
  scriptIds : (s.audioScripts.map AudioScript.id).Nodup
  scripts : ∀ script ∈ s.audioScripts, ScriptKept s script
  chunks : ∀ chunk ∈ s.audioScriptChunks, InPlan s chunk
  sequence : UniqueWhere Db.chunkSequenceCurrentKey s.audioScriptChunks

theorem NothingDirected.plansKept {s : Store} (h : NothingDirected s) : PlansKept s := by
  refine ⟨h.text, fun job hjob => ?_, fun m hm => ?_, ?_, fun script hscript => ?_,
    fun chunk hchunk => ?_, ?_⟩
  · exact absurd (h.jobs ▸ hjob) List.not_mem_nil
  · exact absurd (h.queue ▸ hm) List.not_mem_nil
  · rw [h.scripts]
    exact List.nodup_nil
  · exact absurd (h.scripts ▸ hscript) List.not_mem_nil
  · exact absurd (h.chunks ▸ hchunk) List.not_mem_nil
  · rw [h.chunks]
    exact List.nodup_nil

/-! ## What Only Grows -/

/-- Text and runs stay, and so do scripts and chunks in their places. -/
structure Grows (s s' : Store) : Prop where
  chapters : s'.chapters = s.chapters
  paragraphs : s'.paragraphs = s.paragraphs
  books : s'.books.map Book.text = s.books.map Book.text
  runs : ∀ jobId run, runOf jobId s = some run → runOf jobId s' = some run
  scripts : ∀ script ∈ s.audioScripts, ∃ script' ∈ s'.audioScripts,
    script'.id = script.id ∧ script'.jobId = script.jobId
  chunks : ∀ chunk ∈ s.audioScriptChunks, ∃ chunk' ∈ s'.audioScriptChunks,
    chunk'.place = chunk.place

instance : IsPreorder Store Grows where
  refl s := ⟨rfl, rfl, rfl, fun _ _ h => h, fun script h => ⟨script, h, rfl, rfl⟩,
    fun chunk h => ⟨chunk, h, rfl⟩⟩
  trans s₁ s₂ s₃ h₁ h₂ := by
    refine ⟨h₂.chapters.trans h₁.chapters, h₂.paragraphs.trans h₁.paragraphs,
      h₂.books.trans h₁.books, fun jobId run hrun => h₂.runs jobId run (h₁.runs jobId run hrun),
      fun script hscript => ?_, fun chunk hchunk => ?_⟩
    · obtain ⟨script₂, hscript₂, hid₂, hjob₂⟩ := h₁.scripts script hscript
      obtain ⟨script₃, hscript₃, hid₃, hjob₃⟩ := h₂.scripts script₂ hscript₂
      exact ⟨script₃, hscript₃, hid₃.trans hid₂, hjob₃.trans hjob₂⟩
    · obtain ⟨chunk₂, hchunk₂, hplace₂⟩ := h₁.chunks chunk hchunk
      obtain ⟨chunk₃, hchunk₃, hplace₃⟩ := h₂.chunks chunk₂ hchunk₂
      exact ⟨chunk₃, hchunk₃, hplace₃.trans hplace₂⟩

section grows

variable {s s' : Store} {audioScriptId : Id} {chapterIds : List Id} {payload : DirectorPayload}
  {script : AudioScript} {chunk : AudioScriptChunk}

theorem Quiet.grows (h : Quiet s s') : Grows s s' where
  chapters := h.chapters
  paragraphs := h.paragraphs
  books := h.books
  runs := h.runs
  scripts script hscript := ⟨script, h.scripts ▸ hscript, rfl, rfl⟩
  chunks chunk hchunk := by
    have hmem : chunk.place ∈ s'.audioScriptChunks.map AudioScriptChunk.place := by
      rw [h.chunks]
      exact List.mem_map_of_mem hchunk
    exact List.mem_map.mp hmem

theorem chaptersToDirect_congr (h : s'.chapters = s.chapters) (bookVersionId : Id)
    (body : StartDirector) :
    chaptersToDirect bookVersionId body s' = chaptersToDirect bookVersionId body s := by
  unfold chaptersToDirect chaptersOfVersion
  rw [h]

theorem SpineOrdered.congr (h : SpineOrdered s) (hchapters : s'.chapters = s.chapters)
    (hparagraphs : s'.paragraphs = s.paragraphs) : SpineOrdered s' := by
  obtain ⟨h₁, h₂, h₃, h₄, h₅, h₆⟩ := h
  constructor <;> simpa only [hchapters, hparagraphs]

theorem IsRoot.congr {jobId : Id} (h : IsRoot s jobId payload) (hchapters : s'.chapters = s.chapters) :
    IsRoot s' jobId payload := by
  obtain ⟨body, hchosen⟩ := h.chosen
  refine ⟨h.rootJobId, h.audioScriptId, h.sequenceIndexStart, h.allChapterIds, body, ?_⟩
  rw [chaptersToDirect_congr hchapters]
  exact hchosen

theorem Stored.grows (h : Stored s audioScriptId chapterIds) (hgrows : Grows s s') :
    Stored s' audioScriptId chapterIds := by
  intro planned hplanned
  rw [plan_congr hgrows.paragraphs] at hplanned
  obtain ⟨chunk, hchunk, hscript, hcurrent, rfl⟩ := h planned hplanned
  obtain ⟨chunk', hchunk', hplace⟩ := hgrows.chunks chunk hchunk
  rw [AudioScriptChunk.place, AudioScriptChunk.place, ChunkPlace.mk.injEq] at hplace
  obtain ⟨-, hscript', hcurrent', hplanned'⟩ := hplace
  exact ⟨chunk', hchunk', hscript'.trans hscript, hcurrent'.trans hcurrent, hplanned'⟩

theorem HasScript.grows {rootJobId : Id} (h : HasScript s audioScriptId rootJobId)
    (hgrows : Grows s s') : HasScript s' audioScriptId rootJobId := by
  obtain ⟨script, hscript, hid, hjob⟩ := h
  obtain ⟨script', hscript', hid', hjob'⟩ := hgrows.scripts script hscript
  exact ⟨script', hscript', hid'.trans hid, hjob'.trans hjob⟩

theorem Position.grows {before : List Id} (h : Position s payload before) (hgrows : Grows s s') :
    Position s' payload before where
  chapters := h.chapters
  start := by
    rw [plan_congr hgrows.paragraphs]
    exact h.start
  fresh := h.fresh
  stored audioScriptId hscript :=
    ⟨(h.stored audioScriptId hscript).1.grows hgrows, (h.stored audioScriptId hscript).2.grows hgrows⟩

theorem OnPlan.grows (h : OnPlan s payload) (hgrows : Grows s s') : OnPlan s' payload := by
  obtain ⟨run, hrun, hsame⟩ := h.run
  obtain ⟨before, hposition⟩ := h.position
  exact ⟨⟨run, hgrows.runs _ _ hrun, hsame⟩, before, hposition.grows hgrows⟩

theorem run_of_grows {script' : AudioScript} {run : DirectorPayload} (hrun : script.run s = some run)
    (hgrows : Grows s s') (hjob : script'.jobId = script.jobId) : script'.run s' = some run := by
  rw [AudioScript.run, hjob]
  obtain ⟨jobId, hid, hrun⟩ := Option.bind_eq_some_iff.mp hrun
  exact Option.bind_eq_some_iff.mpr ⟨jobId, hid, hgrows.runs _ _ hrun⟩

theorem ScriptKept.grows (h : ScriptKept s script) (hgrows : Grows s s') : ScriptKept s' script := by
  obtain ⟨run, hrun, hstored⟩ := h
  exact ⟨run, run_of_grows hrun hgrows rfl, fun hstate => (hstored hstate).grows hgrows⟩

theorem InPlan.grows {chunk' : AudioScriptChunk} (h : InPlan s chunk) (hgrows : Grows s s')
    (hplace : chunk'.place = chunk.place) : InPlan s' chunk' := by
  rw [AudioScriptChunk.place, AudioScriptChunk.place, ChunkPlace.mk.injEq] at hplace
  obtain ⟨-, hscript', hcurrent', hplanned'⟩ := hplace
  obtain ⟨hcurrent, script, hscript, hid, run, hrun, hmem⟩ := h
  obtain ⟨script', hmem', hid', hjob'⟩ := hgrows.scripts script hscript
  refine ⟨hcurrent'.trans hcurrent, script', hmem', (hid'.trans hid).trans hscript'.symm, run,
    run_of_grows hrun hgrows hjob', ?_⟩
  rw [plan_congr hgrows.paragraphs, hplanned']
  exact hmem

end grows

/-! ## Keeping the Plans -/

section kept

variable {s s' : Store}

/-- The key of the unique index on the numbers of a script is a matter of places. -/
def ChunkPlace.sequenceKey (place : ChunkPlace) : Option (Id × ℕ) :=
  if place.isCurrent then some (place.audioScriptId, place.planned.sequenceIndex) else none

theorem uniqueWhere_sequence_iff {chunks : List AudioScriptChunk} :
    UniqueWhere Db.chunkSequenceCurrentKey chunks ↔
      UniqueWhere ChunkPlace.sequenceKey (chunks.map AudioScriptChunk.place) := by
  rw [UniqueWhere, UniqueWhere, List.filterMap_map]
  rfl

theorem PlansKept.of_grows (h : PlansKept s) (hgrows : Grows s s')
    (hjobs : ∀ job' ∈ s'.processingJobs, ∀ run, job'.director? = some run →
      (∃ job ∈ s.processingJobs, job.id = job'.id ∧ job.director? = some run) ∨
        (runOf job'.id s' = some run ∧ IsRoot s' job'.id run))
    (hqueue : ∀ m ∈ s'.queue, ∀ payload, m.director? = some payload →
      m ∈ s.queue ∨ OnPlan s' payload)
    (hscriptIds : (s'.audioScripts.map AudioScript.id).Nodup)
    (hscripts : ∀ script ∈ s'.audioScripts, script ∈ s.audioScripts ∨ ScriptKept s' script)
    (hchunks : ∀ chunk' ∈ s'.audioScriptChunks,
      (∃ chunk ∈ s.audioScriptChunks, chunk.place = chunk'.place) ∨ InPlan s' chunk')
    (hsequence : UniqueWhere Db.chunkSequenceCurrentKey s'.audioScriptChunks) : PlansKept s' where
  text := h.text.congr hgrows.chapters hgrows.paragraphs
  jobs job' hjob' run hrun := by
    rcases hjobs job' hjob' run hrun with ⟨job, hjob, hid, hrun⟩ | hnew
    · obtain ⟨hfound, hroot⟩ := h.jobs job hjob run hrun
      rw [← hid]
      exact ⟨hgrows.runs _ _ hfound, hroot.congr hgrows.chapters⟩
    · exact hnew
  queue m hm payload hpayload := by
    rcases hqueue m hm payload hpayload with hm | hnew
    · exact (h.queue m hm payload hpayload).grows hgrows
    · exact hnew
  scriptIds := hscriptIds
  scripts script hscript :=
    (hscripts script hscript).elim (fun hold => (h.scripts script hold).grows hgrows) id
  chunks chunk' hchunk' := by
    rcases hchunks chunk' hchunk' with ⟨chunk, hchunk, hplace⟩ | hnew
    · exact (h.chunks chunk hchunk).grows hgrows hplace.symm
    · exact hnew
  sequence := hsequence

theorem PlansKept.of_quiet (h : PlansKept s) (hquiet : Quiet s s') : PlansKept s' := by
  refine h.of_grows hquiet.grows (fun job' hjob' run hrun => .inl (hquiet.jobs job' hjob' run hrun))
    (fun m hm payload hpayload => ?_) (hquiet.scripts ▸ h.scriptIds)
    (fun script hscript => .inl (hquiet.scripts ▸ hscript)) (fun chunk' hchunk' => .inl ?_) ?_
  · rcases hquiet.queue m hm with hm | hother
    · exact .inl hm
    · rw [hother] at hpayload
      cases hpayload
  · have hmem : chunk'.place ∈ s.audioScriptChunks.map AudioScriptChunk.place := by
      rw [← hquiet.chunks]
      exact List.mem_map_of_mem hchunk'
    exact List.mem_map.mp hmem
  · rw [uniqueWhere_sequence_iff, hquiet.chunks, ← uniqueWhere_sequence_iff]
    exact h.sequence

variable {run : DirectorPayload}

theorem IsRoot.onPlan {jobId : Id} (h : IsRoot s jobId run) (hrun : runOf jobId s = some run) :
    OnPlan s run where
  run := ⟨run, h.rootJobId.symm ▸ hrun, rfl, rfl, rfl⟩
  position := by
    refine ⟨[], h.allChapterIds, h.sequenceIndexStart, fun _ => rfl, fun audioScriptId hscript => ?_⟩
    rw [h.audioScriptId] at hscript
    cases hscript

theorem PlansKept.send (h : PlansKept s) {envelope : Envelope}
    (hplan : ∀ payload, envelope.director? = some payload → OnPlan s payload) :
    PlansKept (if s.queue.any fun m => decide (m.jobId = envelope.jobId) then s
        else { s with queue := s.queue ++ [envelope] }) ∧
      Grows s (if s.queue.any fun m => decide (m.jobId = envelope.jobId) then s
        else { s with queue := s.queue ++ [envelope] }) := by
  split
  · exact ⟨h, refl_of Grows s⟩
  · have hgrows : Grows s { s with queue := s.queue ++ [envelope] } :=
      ⟨rfl, rfl, rfl, fun _ _ hrun => hrun, fun script hscript => ⟨script, hscript, rfl, rfl⟩,
        fun chunk hchunk => ⟨chunk, hchunk, rfl⟩⟩
    refine ⟨h.of_grows hgrows (fun job hjob run hrun => .inl ⟨job, hjob, rfl, hrun⟩)
      (fun m hm payload hpayload => ?_) h.scriptIds (fun script hscript => .inl hscript)
      (fun chunk hchunk => .inl ⟨chunk, hchunk, rfl⟩) h.sequence, hgrows⟩
    rcases List.mem_append.mp hm with hm | hm
    · exact .inl hm
    · rw [List.mem_singleton.mp hm] at hpayload
      exact .inr ((hplan payload hpayload).grows hgrows)

theorem PlansKept.create (h : PlansKept s) {job : ProcessingJob} (hrun : job.director? = some run)
    (hroot : IsRoot s job.id run) (hok : createJobs [job] s = .ok ((), s')) :
    PlansKept s' ∧ Grows s s' ∧ runOf job.id s' = some run := by
  obtain ⟨_, s₁, hinsert, hend⟩ := Transaction.bind_eq_ok_iff.mp hok
  obtain ⟨-, rfl⟩ := Transaction.pure_eq_ok_iff.mp hend
  obtain ⟨haccepts, hs₁⟩ := (Table.insert_eq_ok_iff _).mp hinsert
  have hids : ((s.processingJobs ++ [job]).map ProcessingJob.id).Nodup :=
    (Db.processingJob_accepts_iff.mp haccepts).id
  obtain rfl : s₁ = { s with processingJobs := s.processingJobs ++ [job] } := hs₁
  have hgrows : Grows s { s with processingJobs := s.processingJobs ++ [job] } :=
    ⟨rfl, rfl, rfl, fun jobId run hrun => runOf_append hrun,
      fun script hscript => ⟨script, hscript, rfl, rfl⟩, fun chunk hchunk => ⟨chunk, hchunk, rfl⟩⟩
  have hfound : runOf job.id { s with processingJobs := s.processingJobs ++ [job] } = some run := by
    refine Option.bind_eq_some_iff.mpr ⟨job, ?_, hrun⟩
    exact (find?_eq_some_iff_of_nodup hids).mpr ⟨List.mem_append_right _ List.mem_cons_self, rfl⟩
  refine ⟨h.of_grows hgrows (fun job' hjob' run' hrun' => ?_) (fun m hm _ _ => .inl hm) h.scriptIds
    (fun script hscript => .inl hscript) (fun chunk hchunk => .inl ⟨chunk, hchunk, rfl⟩) h.sequence,
    hgrows, hfound⟩
  rcases List.mem_append.mp hjob' with hjob' | hjob'
  · exact .inl ⟨job', hjob', rfl, hrun'⟩
  · rw [List.mem_singleton.mp hjob'] at hrun' ⊢
    cases hrun.symm.trans hrun'
    exact .inr ⟨hfound, hroot.congr rfl⟩

theorem PlansKept.createScript (h : PlansKept s) {script : AudioScript}
    (haccepts : Db.audioScript.Accepts (s.audioScripts ++ [script]))
    (hrun : script.run s = some run) (hdraft : script.state = .draft) :
    PlansKept { s with audioScripts := s.audioScripts ++ [script] } ∧
      Grows s { s with audioScripts := s.audioScripts ++ [script] } := by
  have hgrows : Grows s { s with audioScripts := s.audioScripts ++ [script] } :=
    ⟨rfl, rfl, rfl, fun _ _ hrun => hrun,
      fun script' hscript' => ⟨script', List.mem_append_left _ hscript', rfl, rfl⟩,
      fun chunk hchunk => ⟨chunk, hchunk, rfl⟩⟩
  refine ⟨h.of_grows hgrows (fun job hjob run hrun => .inl ⟨job, hjob, rfl, hrun⟩)
    (fun m hm _ _ => .inl hm) (Db.audioScript_accepts_iff.mp haccepts).id
    (fun script' hscript' => ?_) (fun chunk hchunk => .inl ⟨chunk, hchunk, rfl⟩) h.sequence, hgrows⟩
  rcases List.mem_append.mp hscript' with hscript' | hscript'
  · exact .inl hscript'
  · rw [List.mem_singleton.mp hscript']
    refine .inr ⟨run, hrun, fun hvalidated => ?_⟩
    rw [hdraft] at hvalidated
    cases hvalidated

theorem insertChunks_spec {chunks : List BuiltChunk}
    (hok : insertChunks chunks s = .ok ((), s')) :
    s' = { s with audioScriptChunks := s.audioScriptChunks ++ chunks.map BuiltChunk.toRow } ∧
      (UniqueWhere Db.chunkSequenceCurrentKey s.audioScriptChunks →
        UniqueWhere Db.chunkSequenceCurrentKey s'.audioScriptChunks) := by
  induction chunks generalizing s with
  | nil =>
    obtain ⟨-, rfl⟩ := Transaction.pure_eq_ok_iff.mp hok
    exact ⟨by rw [List.map_nil, List.append_nil], id⟩
  | cons chunk chunks ih =>
    obtain ⟨_, s₁, hinsert, hok⟩ := Transaction.bind_eq_ok_iff.mp hok
    obtain ⟨haccepts, rfl⟩ := (Table.insert_eq_ok_iff _).mp hinsert
    obtain ⟨hs', hunique⟩ := ih hok
    refine ⟨?_, fun _ => hunique (Db.audioScriptChunk_accepts_iff.mp haccepts).sequence⟩
    rw [hs']
    simp [Db.audioScriptChunk]

theorem PlansKept.insertChunks (h : PlansKept s) {chunks : List BuiltChunk}
    {audioScriptId rootJobId : Id} (hscript : HasScript s audioScriptId rootJobId)
    (hrun : runOf rootJobId s = some run)
    (hplanned : ∀ chunk ∈ chunks, chunk.audioScriptId = audioScriptId ∧
      chunk.toRow.planned ∈ plan s run.allChapterIds)
    (hok : AudioBook.insertChunks chunks s = .ok ((), s')) : PlansKept s' ∧ Grows s s' := by
  obtain ⟨rfl, hunique⟩ := insertChunks_spec hok
  have hgrows : Grows s
      { s with audioScriptChunks := s.audioScriptChunks ++ chunks.map BuiltChunk.toRow } :=
    ⟨rfl, rfl, rfl, fun _ _ hrun => hrun, fun script hscript => ⟨script, hscript, rfl, rfl⟩,
      fun chunk hchunk => ⟨chunk, List.mem_append_left _ hchunk, rfl⟩⟩
  refine ⟨h.of_grows hgrows (fun job hjob run hrun => .inl ⟨job, hjob, rfl, hrun⟩)
    (fun m hm _ _ => .inl hm) h.scriptIds (fun script hscript => .inl hscript)
    (fun chunk hchunk => ?_) (hunique h.sequence), hgrows⟩
  rcases List.mem_append.mp hchunk with hchunk | hchunk
  · exact .inl ⟨chunk, hchunk, rfl⟩
  · obtain ⟨built, hbuilt, rfl⟩ := List.mem_map.mp hchunk
    obtain ⟨hid, hmem⟩ := hplanned built hbuilt
    obtain ⟨script, hscript, hscriptId, hjob⟩ := hscript
    refine .inr ⟨rfl, script, hscript, hscriptId.trans hid.symm, run, ?_, ?_⟩
    · exact Option.bind_eq_some_iff.mpr ⟨rootJobId, hjob, hrun⟩
    · rw [plan_congr hgrows.paragraphs]
      exact hmem

/-! ## Sessions -/

theorem finalizeAudioScript_spec {audioScriptId bookId : Id} {coverage : CoverageResult}
    (hok : finalizeAudioScript audioScriptId bookId coverage s = .ok ((), s')) :
    s' = { s with audioScripts := s'.audioScripts, books := s'.books } ∧
      s'.books.map Book.text = s.books.map Book.text ∧
      ∃ f : AudioScript → AudioScript,
        (∀ script, (f script).id = script.id ∧ (f script).jobId = script.jobId ∧
          ((f script).state = .validated → script.state = .validated ∨ script.id = audioScriptId)) ∧
          s'.audioScripts = s.audioScripts.map f := by
  obtain ⟨_, s₁, hvalidate, hok⟩ := Transaction.bind_eq_ok_iff.mp hok
  obtain ⟨_, s₂, hretire, hpoint⟩ := Transaction.bind_eq_ok_iff.mp hok
  obtain ⟨-, rfl⟩ := (Table.update_eq_ok_iff _).mp hvalidate
  obtain ⟨-, rfl⟩ := (Table.update_eq_ok_iff _).mp hretire
  obtain ⟨-, rfl⟩ := (Table.update_eq_ok_iff _).mp hpoint
  refine ⟨rfl, ?_, _, fun script => ?_, List.map_map⟩
  · show (updateWhere _ _ s.books).map Book.text = _
    refine map_updateWhere Book.text (fun book => ?_) s.books
    rfl
  dsimp only [Function.comp]
  split
  · next hid =>
    split
    · exact ⟨rfl, rfl, fun hvalidated => by cases hvalidated⟩
    · exact ⟨rfl, rfl, fun _ => .inr (of_decide_eq_true hid)⟩
  · split
    · exact ⟨rfl, rfl, fun hvalidated => by cases hvalidated⟩
    · exact ⟨rfl, rfl, .inl⟩

theorem PlansKept.finalize (h : PlansKept s) {audioScriptId bookId rootJobId : Id}
    {coverage : CoverageResult} (hscript : HasScript s audioScriptId rootJobId)
    (hrun : runOf rootJobId s = some run) (hstored : Stored s audioScriptId run.allChapterIds)
    (hok : finalizeAudioScript audioScriptId bookId coverage s = .ok ((), s')) :
    PlansKept s' ∧ Grows s s' := by
  obtain ⟨hs', hbooks, f, hf, hscripts⟩ := finalizeAudioScript_spec hok
  have hgrows : Grows s s' := by
    refine ⟨by rw [hs'], by rw [hs'], hbooks, fun jobId run hrun => ?_, fun script hscript => ?_,
      fun chunk hchunk => ⟨chunk, by rw [hs']; exact hchunk, rfl⟩⟩
    · rw [hs']
      exact hrun
    · rw [hscripts]
      exact ⟨f script, List.mem_map_of_mem hscript, (hf script).1, (hf script).2.1⟩
  have hids : s'.audioScripts.map AudioScript.id = s.audioScripts.map AudioScript.id := by
    rw [hscripts, List.map_map]
    exact List.map_congr_left fun script _ => (hf script).1
  have hjobs : s'.processingJobs = s.processingJobs := by rw [hs']
  have hqueue : s'.queue = s.queue := by rw [hs']
  have hchunks : s'.audioScriptChunks = s.audioScriptChunks := by rw [hs']
  refine ⟨h.of_grows hgrows (fun job hjob run hrun => .inl ⟨job, hjobs ▸ hjob, rfl, hrun⟩)
    (fun m hm _ _ => .inl (hqueue ▸ hm)) (hids ▸ h.scriptIds) (fun script' hscript' => .inr ?_)
    (fun chunk hchunk => .inl ⟨chunk, hchunks ▸ hchunk, rfl⟩) (hchunks ▸ h.sequence), hgrows⟩
  rw [hscripts] at hscript'
  obtain ⟨script, hmem, rfl⟩ := List.mem_map.mp hscript'
  obtain ⟨hid, hjob, hstate⟩ := hf script
  obtain ⟨run', hrun', hkept⟩ := h.scripts script hmem
  refine ⟨run', run_of_grows hrun' hgrows hjob, fun hvalidated => ?_⟩
  rw [hid]
  rcases hstate hvalidated with hbefore | hown
  · exact (hkept hbefore).grows hgrows
  · -- the only script with the id is the one of the run
    obtain ⟨own, hown', hownId, hownJob⟩ := hscript
    have heq : script = own :=
      List.inj_on_of_nodup_map h.scriptIds hmem hown' (hown.trans hownId.symm)
    rw [AudioScript.run, heq, hownJob] at hrun'
    cases hrun.symm.trans hrun'
    rw [hown]
    exact hstored.grows hgrows

theorem PlansKept.beginChapter (h : PlansKept s) {jobId : Id} {new : NewAudioScript}
    (hrun : runOf new.jobId s = some run) (hok : beginChapter jobId (some new) s = .ok ((), s')) :
    PlansKept s' ∧ Grows s s' ∧ HasScript s' new.audioScriptId new.jobId := by
  obtain ⟨_, s₁, hmark, hok⟩ := Transaction.bind_eq_ok_iff.mp hok
  obtain ⟨_, _, hget, hcreate⟩ := Transaction.bind_eq_ok_iff.mp hok
  cases hget
  obtain ⟨_, _, hget, hinsert⟩ :=
    Transaction.bind_eq_ok_iff.mp (Session.lift_eq_ok_iff.mp hcreate)
  cases hget
  obtain ⟨haccepts, rfl⟩ := (Table.insert_eq_ok_iff _).mp hinsert
  have hquiet : Quiet s s₁ := quiet_markJobRunning jobId s _ s₁ hmark
  obtain ⟨hkept, hgrows⟩ :=
    (h.of_quiet hquiet).createScript haccepts (hquiet.runs _ _ hrun) rfl
  exact ⟨hkept, trans_of Grows hquiet.grows hgrows, _, List.mem_append_right _ List.mem_cons_self,
    rfl, rfl⟩

end kept

/-! ## Directing a Chapter -/

section chapter

variable {s s' : Store} {payload : DirectorPayload} {audioScriptId : Id} {chunks : List BuiltChunk}

theorem buildChunks_planned (frame : ChunkFrame) (interpret : Id → ChunkSpan → Interpretation)
    {ids : List Id} {spans : List (Id × ChunkSpan)} (hlength : ids.length = spans.length)
    (n k : ℕ) :
    (buildChunks frame interpret n k (ids.zip spans)).map (fun chunk => chunk.toRow.planned)
      = planSpans frame.chapterId n k spans := by
  induction ids generalizing spans n k with
  | nil =>
    obtain rfl : spans = [] := List.length_eq_zero_iff.mp hlength.symm
    rfl
  | cons id ids ih =>
    match spans, hlength with
    | span :: spans, hlength =>
      rw [List.zip_cons_cons, buildChunks, List.map_cons, ih (Nat.succ.inj hlength), planSpans]
      rfl

theorem audioScriptId_of_mem_buildChunks {frame : ChunkFrame}
    {interpret : Id → ChunkSpan → Interpretation} {spans : List (Id × Id × ChunkSpan)} {n k : ℕ}
    {chunk : BuiltChunk} (h : chunk ∈ buildChunks frame interpret n k spans) :
    chunk.audioScriptId = frame.audioScriptId := by
  induction spans generalizing n k with
  | nil => cases h
  | cons span spans ih =>
    rcases List.mem_cons.mp h with rfl | h
    · rfl
    · exact ih h

/-- The chunks of a chapter of a run, for its script. -/
structure ChapterChunks (s : Store) (payload : DirectorPayload) (audioScriptId : Id)
    (chunks : List BuiltChunk) : Prop where
  audioScriptId : ∀ chunk ∈ chunks, chunk.audioScriptId = audioScriptId
  planned : chunks.map (fun chunk => chunk.toRow.planned) =
    planChapter s payload.sequenceIndexStart payload.chapterId

theorem PlansKept.storeChapter (h : PlansKept s)
    (hplan : OnPlan s { payload with audioScriptId := some audioScriptId })
    (hchunks : ChapterChunks s payload audioScriptId chunks)
    (hok : AudioBook.insertChunks chunks s = .ok ((), s')) :
    PlansKept s' ∧ Grows s s' ∧ ∃ before,
      payload.allChapterIds = (before ++ [payload.chapterId]) ++ payload.remainingChapterIds ∧
      Stored s' audioScriptId (before ++ [payload.chapterId]) ∧
      payload.sequenceIndexStart + chunks.length =
        (plan s' (before ++ [payload.chapterId])).length := by
  obtain ⟨run, hrun, -, -, hall⟩ := hplan.run
  obtain ⟨before, hposition⟩ := hplan.position
  obtain ⟨hscript, hstored⟩ := hposition.stored audioScriptId rfl
  have hchapters : payload.allChapterIds =
      (before ++ [payload.chapterId]) ++ payload.remainingChapterIds := by
    rw [List.append_assoc]
    exact hposition.chapters
  have hstart : payload.sequenceIndexStart = (plan s before).length := hposition.start
  have hconcat : plan s (before ++ [payload.chapterId]) =
      plan s before ++ chunks.map fun chunk => chunk.toRow.planned := by
    rw [plan_concat, ← hstart, ← hchunks.planned]
  obtain ⟨hkept, hgrows⟩ := h.insertChunks hscript hrun (fun chunk hchunk => by
    refine ⟨hchunks.audioScriptId chunk hchunk, ?_⟩
    rw [← hall]
    show _ ∈ plan s payload.allChapterIds
    rw [hchapters, plan, planFrom_append, ← plan, hconcat]
    exact List.mem_append_left _ (List.mem_append_right _ (List.mem_map_of_mem hchunk))) hok
  refine ⟨hkept, hgrows, before, hchapters, fun planned hplanned => ?_, ?_⟩
  · rw [plan_congr hgrows.paragraphs, hconcat] at hplanned
    rcases List.mem_append.mp hplanned with hplanned | hplanned
    · rw [← plan_congr hgrows.paragraphs] at hplanned
      exact hstored.grows hgrows planned hplanned
    · obtain ⟨chunk, hchunk, rfl⟩ := List.mem_map.mp hplanned
      refine ⟨chunk.toRow, ?_, hchunks.audioScriptId chunk hchunk, rfl, rfl⟩
      rw [(insertChunks_spec hok).1]
      exact List.mem_append_right _ (List.mem_map_of_mem hchunk)
  · rw [plan_congr hgrows.paragraphs, hconcat, List.length_append, List.length_map, hstart]

theorem PlansKept.chain (h : PlansKept s)
    (hplan : OnPlan s { payload with audioScriptId := some audioScriptId })
    (hchunks : ChapterChunks s payload audioScriptId chunks) {jobId nextChapterId : Id}
    {remaining : List Id} (hremaining : payload.remainingChapterIds = nextChapterId :: remaining)
    {child : ProcessingJob} (hchild : child.director? = none)
    (hok : persistChapter jobId chunks (.chain child) s = .ok ((), s')) :
    PlansKept s' ∧ Grows s s' ∧ OnPlan s' { payload with
      audioScriptId := some audioScriptId
      chapterId := nextChapterId
      remainingChapterIds := remaining
      sequenceIndexStart := payload.sequenceIndexStart + chunks.length } := by
  obtain ⟨_, s₁, hinsert, hrest⟩ := Transaction.bind_eq_ok_iff.mp hok
  obtain ⟨hkept, hgrows, before, hchapters, hstored, hcount⟩ :=
    h.storeChapter hplan hchunks (Session.lift_eq_ok_iff.mp hinsert)
  have hquiet : Quiet s₁ s' :=
    Transaction.within_bind (quiet_insertJob hchild) (fun _ => quiet_markJobSucceeded jobId)
      s₁ () s' hrest
  have hgrows' : Grows s s' := trans_of Grows hgrows hquiet.grows
  obtain ⟨run, hrun, hsame⟩ := hplan.run
  obtain ⟨_, hposition⟩ := hplan.position
  refine ⟨hkept.of_quiet hquiet, hgrows', ⟨run, hgrows'.runs _ _ hrun, hsame⟩,
    before ++ [payload.chapterId], ?_, ?_, (fun hnone => by cases hnone), fun id hid => ?_⟩
  · exact hchapters.trans (by rw [hremaining])
  · rw [plan_congr hquiet.paragraphs]
    exact hcount
  · cases hid
    exact ⟨(hposition.stored audioScriptId rfl).1.grows hgrows', hstored.grows hquiet.grows⟩

theorem PlansKept.finish (h : PlansKept s)
    (hplan : OnPlan s { payload with audioScriptId := some audioScriptId })
    (hchunks : ChapterChunks s payload audioScriptId chunks) {jobId : Id}
    (hremaining : payload.remainingChapterIds = [])
    (hok : persistChapter jobId chunks (.finalize payload.bookId payload.rootJobId audioScriptId
      payload.allChapterIds) s = .ok ((), s')) : PlansKept s' ∧ Grows s s' := by
  obtain ⟨_, s₁, hinsert, hrest⟩ := Transaction.bind_eq_ok_iff.mp hok
  obtain ⟨hkept, hgrows, before, hchapters, hstored, -⟩ :=
    h.storeChapter hplan hchunks (Session.lift_eq_ok_iff.mp hinsert)
  obtain ⟨-, -, s₂, s₃, hfinalize, hsucceed, hroot⟩ := finalizeRun_eq_ok_iff.mp hrest
  obtain ⟨run, hrun, -, -, hall⟩ := hplan.run
  obtain ⟨_, hposition⟩ := hplan.position
  rw [hremaining, List.append_nil] at hchapters
  have hstored' : Stored s₁ audioScriptId run.allChapterIds := by
    rw [← hall]
    show Stored s₁ audioScriptId payload.allChapterIds
    rw [hchapters]
    exact hstored
  obtain ⟨hkept', hgrows'⟩ := hkept.finalize ((hposition.stored audioScriptId rfl).1.grows hgrows)
    (hgrows.runs _ _ hrun) hstored' hfinalize
  have hquiet : Quiet s₂ s' := trans_of Quiet (quiet_markJobSucceeded jobId s₂ _ s₃ hsucceed)
    (quiet_finalizeRootJob payload.rootJobId s₃ _ s' hroot)
  exact ⟨hkept'.of_quiet hquiet,
    trans_of Grows hgrows (trans_of Grows hgrows' hquiet.grows)⟩

end chapter

/-! ## Revising Chunks -/

section revision

variable {s s' : Store}

/-- A current chunk of a row's script has the row's number. -/
def NumberTaken (s : Store) (row : AudioScriptChunk) : Prop :=
  ∃ chunk ∈ s.audioScriptChunks,
    Db.chunkSequenceCurrentKey chunk = some (row.audioScriptId, row.sequenceIndex)

variable {row : AudioScriptChunk}

theorem supersedeLockedChunk_ne_ok {oldChunkId : Id} {new : BuiltChunk} (htaken : NumberTaken s row)
    (hscript : new.audioScriptId = row.audioScriptId)
    (hnumber : new.sequenceIndex = row.sequenceIndex) :
    supersedeLockedChunk oldChunkId new s ≠ .ok ((), s') := by
  intro hok
  obtain ⟨_, s₁, hinsert, -⟩ := Transaction.bind_eq_ok_iff.mp hok
  obtain ⟨_, s₂, hinsert, -⟩ := Transaction.bind_eq_ok_iff.mp hinsert
  obtain ⟨haccepts, -⟩ := (Table.insert_eq_ok_iff _).mp hinsert
  obtain ⟨chunk, hchunk, hkey⟩ := htaken
  have hunique := (Db.audioScriptChunk_accepts_iff.mp haccepts).sequence
  refine (uniqueWhere_concat_iff.mp hunique).2 _ ?_ chunk hchunk hkey
  rw [← hscript, ← hnumber]
  rfl

theorem quiet_reviseChunk {newChunkId : Id} {built : BuiltChunk} (htaken : NumberTaken s row)
    (hok : reviseChunk row newChunkId built s = .ok ((), s')) : Quiet s s' := by
  unfold reviseChunk at hok
  split at hok
  · exact absurd hok (supersedeLockedChunk_ne_ok htaken rfl rfl)
  · have hupdate : (updateChunkInPlace row.id built).Within Quiet := by
      refine quiet_updateChunks fun chunk => ?_
      rfl
    exact hupdate s () s' hok

theorem NumberTaken.of_place (h : NumberTaken s row)
    (hchunks : ∀ chunk ∈ s.audioScriptChunks, ∃ chunk' ∈ s'.audioScriptChunks, chunk'.place = chunk.place) :
    NumberTaken s' row := by
  obtain ⟨chunk, hchunk, hkey⟩ := h
  obtain ⟨chunk', hchunk', hplace⟩ := hchunks chunk hchunk
  refine ⟨chunk', hchunk', ?_⟩
  show chunk'.place.sequenceKey = _
  rw [hplace]
  exact hkey

theorem quiet_reviseChunks {revisions : List Revision}
    (htaken : ∀ revision ∈ revisions, NumberTaken s revision.row)
    (hok : reviseChunks revisions s = .ok ((), s')) : Quiet s s' := by
  induction revisions generalizing s with
  | nil =>
    obtain ⟨-, rfl⟩ := Transaction.pure_eq_ok_iff.mp hok
    exact refl_of Quiet s
  | cons revision revisions ih =>
    obtain ⟨_, s₁, hrevise, hok⟩ := Transaction.bind_eq_ok_iff.mp hok
    have hquiet : Quiet s s₁ := quiet_reviseChunk (htaken revision List.mem_cons_self)
      (Session.lift_eq_ok_iff.mp hrevise)
    refine trans_of Quiet hquiet (ih (fun other hother => ?_) hok)
    exact (htaken other (List.mem_cons_of_mem _ hother)).of_place hquiet.grows.chunks

end revision

end AudioBook
