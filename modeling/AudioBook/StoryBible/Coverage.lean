import AudioBook.StoryBible.Build
import Mathlib.Data.List.Perm.Subperm

/-!
# The Coverage of a Story Bible

`chapters_analyzed` should count chapters: each at most once, no more than `chapters_total` of them,
and all of them exactly when the story bible is ready. But the counter belongs to the book and goes
on where the last analysis has left it, and nothing ties an increment to the chapter that it is for.

- `InBounds`: what the counter, the total and the status should say.
- `Orderly`: analyses that begin while nothing is counted, and deliveries that do not overlap.
- `OnTrack`: the jobs of the newest version are one chain, which stands where the counter does.
- `inBounds_of_orderly`: in every run of orderly accesses the story bible is in bounds.
-/

namespace AudioBook.StoryBible

open Relational Concurrent

/-! ## Bounds -/

def newestVersion (s : BibleStore) : Option StoryBibleVersion := s.versions.getLast?

/-- The counter is at most the total, it counts each chapter at most once, and the story bible is
ready exactly when every chapter of its newest version was counted. -/
structure InBounds (s : BibleStore) : Prop where
  bounded : ∀ bible ∈ s.bible, bible.chaptersAnalyzed ≤ bible.chaptersTotal
  once : s.counted.Nodup
  counts : ∀ bible ∈ s.bible, bible.chaptersAnalyzed = s.counted.length
  finalized : ∀ bible ∈ s.bible, ∀ v ∈ newestVersion s,
    (bible.status = .ready ↔ ∀ chapterId ∈ v.requested, chapterId ∈ s.counted)

/-- The handlers would still run the job. -/
def Unfinished (jobId : Id) (s : BibleStore) : Prop :=
  ∀ job ∈ s.jobs, job.message.jobId = jobId → ¬ job.IsFinished

instance (jobId : Id) (s : BibleStore) : Decidable (Unfinished jobId s) :=
  inferInstanceAs (Decidable (∀ _ ∈ _, _))

/-- A delivery writes while its job is still not finished; a version is created while no chapter has
been counted, and a chapter is counted for the newest version. -/
def Orderly : BibleAccess → BibleStore → Prop
  | .begin jobId, s => Unfinished jobId s
  | .persistAnalysis message _, s => Unfinished message.jobId s ∧
      (message.payload.storyBibleVersionId = none → ∀ bible ∈ s.bible, bible.chaptersAnalyzed = 0)
  | .integrateDelta message versionId _, s => Unfinished message.jobId s ∧
      ∀ v ∈ newestVersion s, v.id = versionId
  | _, _ => True

instance : (a : BibleAccess) → (s : BibleStore) → Decidable (Orderly a s)
  | .begin _, _ => inferInstanceAs (Decidable (Unfinished _ _))
  | .persistAnalysis _ _, _ => inferInstanceAs (Decidable (_ ∧ _))
  | .integrateDelta _ _ _, _ => inferInstanceAs (Decidable (_ ∧ _))
  | .query, _ | .create _, _ | .fail _, _ | .cancel _, _ => isTrue trivial

/-! ## Chains -/

def LinkPayload.chapterIds (payload : LinkPayload) : List Id :=
  payload.chapterId :: payload.remainingChapterIds

/-- The job is an unfinished link of the chain of a version. -/
def LinkJob.Continues (job : LinkJob) (versionId : Id) : Prop :=
  job.message.payload.storyBibleVersionId = some versionId ∧ ¬ job.IsFinished

/-- The story bible agrees with its newest version. -/
structure Agrees (s : BibleStore) (v : StoryBibleVersion) (bible : StoryBibleRow) : Prop where
  requested : v.requested.Nodup
  counted : s.counted <+: v.requested
  analyzed : bible.chaptersAnalyzed = s.counted.length
  total : bible.chaptersTotal = v.requested.length
  ready : bible.status = .ready ↔ s.counted = v.requested

/-- The chain of the newest version stands where the counter does. -/
structure OnTrack (s : BibleStore) : Prop where
  roots : ∀ job ∈ s.jobs, job.message.payload.storyBibleVersionId = none →
    job.message.payload.chapterIds.Nodup ∧
      job.message.payload.chaptersTotal = job.message.payload.chapterIds.length
  known : ∀ job ∈ s.jobs, ∀ versionId ∈ job.message.payload.storyBibleVersionId,
    ∃ v ∈ s.versions, v.id = versionId
  unbuilt : newestVersion s = none → s.bible = none ∧ s.counted = []
  agrees : ∀ v ∈ newestVersion s, ∃ bible, s.bible = some bible ∧ Agrees s v bible
  position : ∀ v ∈ newestVersion s, ∀ job ∈ s.jobs, job.Continues v.id →
    v.requested = s.counted ++ job.message.payload.chapterIds
  alone : ∀ v ∈ newestVersion s, ∀ job ∈ s.jobs, ∀ job' ∈ s.jobs, job.Continues v.id →
    job'.Continues v.id → job.message.jobId = job'.message.jobId

theorem OnTrack.inBounds {s : BibleStore} (h : OnTrack s) : InBounds s := by
  cases hnewest : newestVersion s with
  | none =>
    obtain ⟨hbible, hcounted⟩ := h.unbuilt hnewest
    refine ⟨fun bible hb => ?_, ?_, fun bible hb => ?_, fun bible hb => ?_⟩
    · rw [hbible] at hb
      cases hb
    · rw [hcounted]
      exact List.nodup_nil
    · rw [hbible] at hb
      cases hb
    · rw [hbible] at hb
      cases hb
  | some v =>
    obtain ⟨bible, hbible, hagrees⟩ := h.agrees v hnewest
    refine ⟨fun b hb => ?_, hagrees.counted.sublist.nodup hagrees.requested, fun b hb => ?_,
      fun b hb v' hv' => ?_⟩
    · rw [hbible] at hb
      cases hb
      rw [hagrees.analyzed, hagrees.total]
      exact hagrees.counted.length_le
    · rw [hbible] at hb
      cases hb
      exact hagrees.analyzed
    · rw [hbible] at hb
      cases hb
      cases hnewest.symm.trans hv'
      rw [hagrees.ready]
      constructor
      · rintro heq chapterId hchapter
        exact heq ▸ hchapter
      · intro hall
        -- a prefix without duplicates that has every element is the whole list
        refine hagrees.counted.eq_of_length_le ?_
        exact (List.subperm_of_subset hagrees.requested hall).length_le

/-! ## Jobs -/

section jobs

variable {done : Option Id} {new : Option Message} {s s₁ s' : BibleStore}

/-- What a transaction does to the jobs: each is there before or new, none that was finished is left
unfinished, and the job `done` is finished. -/
structure Moves (done : Option Id) (new : Option Message) (s s' : BibleStore) : Prop where
  source : ∀ job' ∈ s'.jobs, job'.message ∈ new ∨
    ∃ job ∈ s.jobs, job.message = job'.message ∧ (job.IsFinished → job'.IsFinished)
  finished : ∀ job' ∈ s'.jobs, job'.message.jobId ∈ done → job'.IsFinished
  kept : ∀ message, Sent message s → Sent message s'

theorem Moves.refl (s : BibleStore) : Moves none none s s :=
  ⟨fun job' hjob' => .inr ⟨job', hjob', rfl, id⟩, fun _ _ h => absurd h (Option.not_mem_none _), fun _ => id⟩

theorem Moves.congr (h : Moves done new s s₁) (hjobs : s'.jobs = s₁.jobs) :
    Moves done new s s' := by
  refine ⟨fun job' hjob' => ?_, fun job' hjob' => ?_, fun message hsent => ?_⟩
  · exact h.source job' (hjobs ▸ hjob')
  · exact h.finished job' (hjobs ▸ hjob')
  · unfold Sent
    rw [hjobs]
    exact h.kept message hsent

theorem Moves.update (h : Moves done new s s₁) {p : LinkJob → Bool} {status : JobStatus}
    (hjobs : s'.jobs = updateWhere p (withStatus status) s₁.jobs)
    (hstatus : (status = .succeeded ∨ status = .failed) ∨
      ∀ job ∈ s₁.jobs, p job = true → ¬ job.IsFinished) :
    Moves done new s s' := by
  have hfinished : ∀ job ∈ s₁.jobs, p job = true → job.IsFinished →
      (withStatus status job).IsFinished := by
    intro job hjob hp hfin
    rcases hstatus with hstatus | hnot
    · exact hstatus
    · exact absurd hfin (hnot job hjob hp)
  refine ⟨fun job' hjob' => ?_, fun job' hjob' hdone => ?_, fun message hsent => ?_⟩
  · rw [hjobs] at hjob'
    rcases mem_updateWhere.mp hjob' with ⟨job₁, hjob₁, hp, rfl⟩ | ⟨hjob₁, -⟩
    · rcases h.source job₁ hjob₁ with hnew | ⟨job, hjob, hmessage, hkeeps⟩
      · exact .inl hnew
      · exact .inr ⟨job, hjob, hmessage, fun hfin => hfinished job₁ hjob₁ hp (hkeeps hfin)⟩
    · exact h.source job' hjob₁
  · rw [hjobs] at hjob'
    rcases mem_updateWhere.mp hjob' with ⟨job₁, hjob₁, hp, rfl⟩ | ⟨hjob₁, -⟩
    · exact hfinished job₁ hjob₁ hp (h.finished job₁ hjob₁ hdone)
    · exact h.finished job' hjob₁ hdone
  · have hsent₁ := h.kept message hsent
    rw [Sent, hjobs, map_updateWhere LinkJob.message (f := withStatus status) fun _ => rfl]
    exact hsent₁

theorem setStatus_eq_ok {jobId : Id} {status : JobStatus} {u : Unit}
    (h : setStatus jobId status s = .ok (u, s')) :
    s' = { s with
      jobs := updateWhere (fun job => decide (job.message.jobId = jobId)) (withStatus status) s.jobs } :=
  (linkJob.update_eq_ok_iff.mp h).2

theorem Moves.succeed (h : Moves done new s s₁) {jobId : Id} {u : Unit}
    (hset : setStatus jobId .succeeded s₁ = .ok (u, s')) : Moves (some jobId) new s s' := by
  have hs' := setStatus_eq_ok hset
  have hjobs : s'.jobs = updateWhere (fun job => decide (job.message.jobId = jobId))
      (withStatus .succeeded) s₁.jobs := by rw [hs']
  have hmoves := h.update hjobs (.inl (.inl rfl))
  refine ⟨hmoves.source, fun job' hjob' hdone => ?_, hmoves.kept⟩
  cases hdone
  rw [hjobs] at hjob'
  rcases mem_updateWhere.mp hjob' with ⟨job₁, -, -, rfl⟩ | ⟨-, hp⟩
  · exact .inl rfl
  · exact absurd rfl (of_decide_eq_false hp)

theorem Moves.insert (h : Moves none none s s₁) {job : LinkJob} {u : Unit}
    (hinsert : (linkJob.insert job : BibleTx Unit) s₁ = .ok (u, s')) : Moves none (some job.message) s s' := by
  have hjobs : s'.jobs = s₁.jobs ++ [job] := by
    rw [(linkJob.insert_eq_ok_iff.mp hinsert).2]
    rfl
  refine ⟨fun job' hjob' => ?_, fun _ _ h => absurd h (Option.not_mem_none _), fun message hsent => ?_⟩
  · rw [hjobs] at hjob'
    rcases List.mem_append.mp hjob' with hjob' | hjob'
    · exact (h.source job' hjob').imp (fun hnone => by cases hnone) id
    · rw [List.mem_singleton.mp hjob']
      exact .inl rfl
  · rw [Sent, hjobs, List.map_append]
    exact List.mem_append_left _ (h.kept message hsent)

end jobs

/-! ## Staying on Track -/

section track

variable {done : Option Id} {new : Option Message} {message : Message} {s s' : BibleStore}

theorem Moves.continues (h : Moves done new s s') {job' : LinkJob} (hjob' : job' ∈ s'.jobs)
    {versionId : Id} (hcontinues : job'.Continues versionId) :
    job'.message ∈ new ∨
      ∃ job ∈ s.jobs, job.message = job'.message ∧ job.Continues versionId := by
  rcases h.source job' hjob' with hnew | ⟨job, hjob, hmessage, hkeeps⟩
  · exact .inl hnew
  · exact .inr ⟨job, hjob, hmessage, hmessage ▸ hcontinues.1, fun hfin => hcontinues.2 (hkeeps hfin)⟩

theorem Sent.exists_job (h : Sent message s) : ∃ job ∈ s.jobs, job.message = message :=
  List.mem_map.mp h

theorem OnTrack.message_mem_new (h : OnTrack s) (hmoves : Moves (some message.jobId) new s s')
    (hsent : Sent message s) (hunfinished : Unfinished message.jobId s) {v : StoryBibleVersion}
    (hv : v ∈ newestVersion s) (hversion : message.payload.storyBibleVersionId = some v.id)
    {job' : LinkJob} (hjob' : job' ∈ s'.jobs) (hcontinues : job'.Continues v.id) :
    job'.message ∈ new := by
  rcases hmoves.continues hjob' hcontinues with hnew | ⟨job, hjob, hmessage, hjobcontinues⟩
  · exact hnew
  · obtain ⟨current, hcurrent, rfl⟩ := hsent.exists_job
    have hcurrentcontinues : current.Continues v.id :=
      ⟨hversion, hunfinished current hcurrent rfl⟩
    have hid := h.alone v hv job hjob current hcurrent hjobcontinues hcurrentcontinues
    exact absurd (hmoves.finished job' hjob' (hmessage ▸ congrArg some hid.symm)) hcontinues.2

theorem OnTrack.roots_of_moves (h : OnTrack s) (hmoves : Moves done new s s')
    (hnew : ∀ next ∈ new, next.payload.storyBibleVersionId ≠ none) :
    ∀ job' ∈ s'.jobs, job'.message.payload.storyBibleVersionId = none →
      job'.message.payload.chapterIds.Nodup ∧
        job'.message.payload.chaptersTotal = job'.message.payload.chapterIds.length := by
  intro job' hjob' hnone
  rcases hmoves.source job' hjob' with hcreated | ⟨job, hjob, hmessage, -⟩
  · exact absurd hnone (hnew _ hcreated)
  · exact hmessage ▸ h.roots job hjob (hmessage ▸ hnone)

theorem OnTrack.of_moves (h : OnTrack s) (hmoves : Moves done none s s')
    (hbible : s'.bible = s.bible) (hversions : s'.versions = s.versions)
    (hcounted : s'.counted = s.counted) : OnTrack s' := by
  have hnewest : newestVersion s' = newestVersion s := by rw [newestVersion, hversions, newestVersion]
  have hold : ∀ job' ∈ s'.jobs, ∃ job ∈ s.jobs, job.message = job'.message := by
    intro job' hjob'
    rcases hmoves.source job' hjob' with hnew | ⟨job, hjob, hmessage, -⟩
    · exact absurd hnew (Option.not_mem_none _)
    · exact ⟨job, hjob, hmessage⟩
  have hcontinues : ∀ job' ∈ s'.jobs, ∀ versionId, job'.Continues versionId →
      ∃ job ∈ s.jobs, job.message = job'.message ∧ job.Continues versionId := by
    intro job' hjob' versionId hjobcontinues
    exact (hmoves.continues hjob' hjobcontinues).resolve_left (Option.not_mem_none _)
  constructor
  case roots => exact h.roots_of_moves hmoves fun _ hnone => absurd hnone (Option.not_mem_none _)
  case known =>
    intro job' hjob'
    obtain ⟨job, hjob, hmessage⟩ := hold job' hjob'
    rw [hversions]
    exact hmessage ▸ h.known job hjob
  case unbuilt =>
    rw [hnewest, hbible, hcounted]
    exact h.unbuilt
  case agrees =>
    rw [hnewest, hbible]
    intro v hv
    obtain ⟨bible, hsome, hagrees⟩ := h.agrees v hv
    exact ⟨bible, hsome, hagrees.requested, hcounted ▸ hagrees.counted, hcounted ▸ hagrees.analyzed,
      hagrees.total, hcounted ▸ hagrees.ready⟩
  case position =>
    rw [hnewest, hcounted]
    intro v hv job' hjob' hjobcontinues
    obtain ⟨job, hjob, hmessage, hjobcontinues⟩ := hcontinues job' hjob' v.id hjobcontinues
    exact hmessage ▸ h.position v hv job hjob hjobcontinues
  case alone =>
    rw [hnewest]
    intro v hv job₁' hjob₁' job₂' hjob₂' hcontinues₁ hcontinues₂
    obtain ⟨job₁, hjob₁, hmessage₁, hcontinues₁⟩ := hcontinues job₁' hjob₁' v.id hcontinues₁
    obtain ⟨job₂, hjob₂, hmessage₂, hcontinues₂⟩ := hcontinues job₂' hjob₂' v.id hcontinues₂
    rw [← hmessage₁, ← hmessage₂]
    exact h.alone v hv job₁ hjob₁ job₂ hjob₂ hcontinues₁ hcontinues₂

theorem OnTrack.create (h : OnTrack s) {job : LinkJob} {u : Unit}
    (hinsert : (linkJob.insert job : BibleTx Unit) s = .ok (u, s'))
    (hroot : job.message.payload.storyBibleVersionId = none)
    (hnodup : job.message.payload.chapterIds.Nodup)
    (htotal : job.message.payload.chaptersTotal = job.message.payload.chapterIds.length) :
    OnTrack s' := by
  obtain ⟨-, rfl⟩ := linkJob.insert_eq_ok_iff.mp hinsert
  have hcontinues : ∀ job' ∈ s.jobs ++ [job], ∀ versionId, job'.Continues versionId →
      job' ∈ s.jobs := by
    intro job' hjob' versionId hjobcontinues
    rcases List.mem_append.mp hjob' with hjob' | hjob'
    · exact hjob'
    · rw [List.mem_singleton.mp hjob', LinkJob.Continues, hroot] at hjobcontinues
      cases hjobcontinues.1
  constructor
  case roots =>
    intro job' hjob'
    rcases List.mem_append.mp hjob' with hjob' | hjob'
    · exact h.roots job' hjob'
    · rw [List.mem_singleton.mp hjob']
      exact fun _ => ⟨hnodup, htotal⟩
  case known =>
    intro job' hjob' versionId hversionId
    rcases List.mem_append.mp hjob' with hjob' | hjob'
    · exact h.known job' hjob' versionId hversionId
    · rw [List.mem_singleton.mp hjob', hroot] at hversionId
      cases hversionId
  case unbuilt => exact h.unbuilt
  case agrees =>
    intro v hv
    obtain ⟨bible, hsome, hagrees⟩ := h.agrees v hv
    exact ⟨bible, hsome, hagrees.requested, hagrees.counted, hagrees.analyzed, hagrees.total,
      hagrees.ready⟩
  case position =>
    intro v hv job' hjob' hjobcontinues
    exact h.position v hv job' (hcontinues job' hjob' v.id hjobcontinues) hjobcontinues
  case alone =>
    intro v hv job₁ hjob₁ job₂ hjob₂ hcontinues₁ hcontinues₂
    exact h.alone v hv job₁ (hcontinues job₁ hjob₁ v.id hcontinues₁) job₂
      (hcontinues job₂ hjob₂ v.id hcontinues₂) hcontinues₁ hcontinues₂

theorem OnTrack.handOver (h : OnTrack s) {next : Message}
    (hmoves : Moves (some message.jobId) (some next) s s') (hsent : Sent message s)
    (hunfinished : Unfinished message.jobId s) {versionId : Id}
    (hversion : message.payload.storyBibleVersionId = some versionId)
    (hnext : next.payload.storyBibleVersionId = some versionId)
    (hversions : s'.versions = s.versions)
    (hunbuilt : newestVersion s = none → s'.bible = none ∧ s'.counted = [])
    (hagrees : ∀ v ∈ newestVersion s, ∃ bible, s'.bible = some bible ∧ Agrees s' v bible)
    (hposition : ∀ v ∈ newestVersion s, v.id = versionId →
      v.requested = s'.counted ++ next.payload.chapterIds)
    (hothers : ∀ v ∈ newestVersion s, v.id ≠ versionId → s'.counted = s.counted) :
    OnTrack s' := by
  have hnewest : newestVersion s' = newestVersion s := by rw [newestVersion, hversions, newestVersion]
  obtain ⟨current, hcurrent, hmessage⟩ := hsent.exists_job
  constructor
  case roots =>
    refine h.roots_of_moves hmoves ?_
    rintro _ ⟨⟩ hnone
    cases hnext.symm.trans hnone
  case known =>
    intro job' hjob' id hid
    rw [hversions]
    rcases hmoves.source job' hjob' with hnew | ⟨job, hjob, hmessage, -⟩
    · cases hnew
      rw [hnext] at hid
      refine h.known current hcurrent id ?_
      rw [hmessage, hversion]
      exact hid
    · exact h.known job hjob id (hmessage ▸ hid)
  case unbuilt =>
    rw [hnewest]
    exact hunbuilt
  case agrees =>
    rw [hnewest]
    exact hagrees
  case position =>
    rw [hnewest]
    intro v hv job' hjob' hcontinues
    by_cases hid : v.id = versionId
    · have hnew := h.message_mem_new hmoves hsent hunfinished hv (hid ▸ hversion) hjob' hcontinues
      cases hnew
      exact hposition v hv hid
    · rcases hmoves.continues hjob' hcontinues with hnew | ⟨job, hjob, hmessage, hjobcontinues⟩
      · cases hnew
        exact absurd (Option.some_inj.mp (hcontinues.1.symm.trans hnext)) hid
      · rw [hothers v hv hid]
        exact hmessage ▸ h.position v hv job hjob hjobcontinues
  case alone =>
    rw [hnewest]
    intro v hv job₁' hjob₁' job₂' hjob₂' hcontinues₁ hcontinues₂
    by_cases hid : v.id = versionId
    · have hnew₁ := h.message_mem_new hmoves hsent hunfinished hv (hid ▸ hversion) hjob₁' hcontinues₁
      have hnew₂ := h.message_mem_new hmoves hsent hunfinished hv (hid ▸ hversion) hjob₂' hcontinues₂
      rw [Option.mem_unique hnew₁ hnew₂]
    · have hold : ∀ job' ∈ s'.jobs, job'.Continues v.id →
          ∃ job ∈ s.jobs, job.message = job'.message ∧ job.Continues v.id := by
        intro job' hjob' hcontinues
        refine (hmoves.continues hjob' hcontinues).resolve_left fun hnew => ?_
        cases hnew
        exact hid (Option.some_inj.mp (hcontinues.1.symm.trans hnext))
      obtain ⟨job₁, hjob₁, hmessage₁, hcontinues₁⟩ := hold job₁' hjob₁' hcontinues₁
      obtain ⟨job₂, hjob₂, hmessage₂, hcontinues₂⟩ := hold job₂' hjob₂' hcontinues₂
      rw [← hmessage₁, ← hmessage₂]
      exact h.alone v hv job₁ hjob₁ job₂ hjob₂ hcontinues₁ hcontinues₂

end track

/-! ## Sessions -/

section sessions

variable {message : Message} {d : Delivery} {s s₁ s' : BibleStore}

theorem OnTrack.counted_eq_nil (h : OnTrack s)
    (hzero : ∀ bible ∈ s.bible, bible.chaptersAnalyzed = 0) : s.counted = [] := by
  cases hnewest : newestVersion s with
  | none => exact (h.unbuilt hnewest).2
  | some v =>
    obtain ⟨bible, hbible, hagrees⟩ := h.agrees v hnewest
    exact List.length_eq_zero_iff.mp (hagrees.analyzed.symm.trans (hzero bible hbible))

theorem createStoryBibleVersion_spec {id versionId : Id} {payload : LinkPayload}
    (hcreate : createStoryBibleVersion id payload s = .ok (versionId, s₁))
    (hzero : ∀ bible ∈ s.bible, bible.chaptersAnalyzed = 0) :
    versionId = id ∧ s₁.jobs = s.jobs ∧ s₁.counted = s.counted ∧ (∀ v ∈ s.versions, v.id ≠ id) ∧
      ∃ v, s₁.versions = s.versions ++ [v] ∧ v.id = id ∧ v.requested = payload.chapterIds ∧
        ∃ bible, s₁.bible = some bible ∧ bible.status = .building ∧ bible.chaptersAnalyzed = 0 ∧
          bible.chaptersTotal = payload.chaptersTotal := by
  obtain ⟨_, _, hget, hcreate⟩ := Transaction.bind_eq_ok_iff.mp hcreate
  cases hget
  obtain ⟨_, s₂, hinsert, hcreate⟩ := Transaction.bind_eq_ok_iff.mp hcreate
  obtain ⟨_, s₃, hmodify, hreturn⟩ := Transaction.bind_eq_ok_iff.mp hcreate
  obtain ⟨haccepts, hs₂⟩ := storyBibleVersion.insert_eq_ok_iff.mp hinsert
  cases hmodify
  cases hreturn
  rw [hs₂]
  refine ⟨rfl, rfl, rfl, ?_, _, rfl, rfl, rfl, _, rfl, ?_⟩
  · have hunique := haccepts _ List.mem_cons_self
    rw [Constraint.holds_uniqueWhere, uniqueWhere_some, List.map_append, List.nodup_append] at hunique
    intro v hv heq
    exact hunique.2.2 v.id (List.mem_map_of_mem hv) id List.mem_cons_self heq
  · cases hbible : s.bible with
    | none => simp [storyBibleVersion, hbible]
    | some bible => simp [storyBibleVersion, hbible, hzero bible hbible]

variable {v : StoryBibleVersion} {bible : StoryBibleRow}

theorem OnTrack.build (h : OnTrack s) {next : Message}
    (hmoves : Moves (some message.jobId) (some next) s s')
    (hnext : next.payload.storyBibleVersionId = some v.id)
    (hchapters : v.requested = next.payload.chapterIds) (hnodup : v.requested.Nodup)
    (hfresh : ∀ w ∈ s.versions, w.id ≠ v.id) (hversions : s'.versions = s.versions ++ [v])
    (hcounted : s'.counted = []) (hbible : s'.bible = some bible)
    (hstatus : bible.status = .building) (hanalyzed : bible.chaptersAnalyzed = 0)
    (htotal : bible.chaptersTotal = v.requested.length) : OnTrack s' := by
  have hnewest : newestVersion s' = some v := by
    rw [newestVersion, hversions, List.getLast?_concat]
  -- no job of the version was there before
  have hnew : ∀ job' ∈ s'.jobs, job'.Continues v.id → job'.message = next := by
    intro job' hjob' hcontinues
    rcases hmoves.continues hjob' hcontinues with hnew | ⟨job, hjob, -, hversion, -⟩
    · cases hnew
      rfl
    · obtain ⟨w, hw, hid⟩ := h.known job hjob v.id hversion
      exact absurd hid (hfresh w hw)
  constructor
  case roots =>
    refine h.roots_of_moves hmoves ?_
    rintro _ ⟨⟩ hnone
    cases hnext.symm.trans hnone
  case known =>
    intro job' hjob' id hid
    rw [hversions]
    rcases hmoves.source job' hjob' with hnew | ⟨job, hjob, hmessage, -⟩
    · cases hnew
      rw [hnext] at hid
      cases hid
      exact ⟨v, by simp, rfl⟩
    · obtain ⟨w, hw, hid⟩ := h.known job hjob id (hmessage ▸ hid)
      exact ⟨w, List.mem_append_left _ hw, hid⟩
  case unbuilt =>
    intro hnone
    rw [hnewest] at hnone
    cases hnone
  case agrees =>
    intro w hw
    cases hnewest.symm.trans hw
    refine ⟨bible, hbible, hnodup, ?_, ?_, htotal, ?_⟩
    · rw [hcounted]
      exact List.nil_prefix
    · rw [hanalyzed, hcounted, List.length_nil]
    · rw [hstatus, hcounted, hchapters]
      simp [LinkPayload.chapterIds]
  case position =>
    intro w hw job' hjob' hcontinues
    cases hnewest.symm.trans hw
    rw [hnew job' hjob' hcontinues, hcounted, List.nil_append]
    exact hchapters
  case alone =>
    intro w hw job₁ hjob₁ job₂ hjob₂ hcontinues₁ hcontinues₂
    cases hnewest.symm.trans hw
    rw [hnew job₁ hjob₁ hcontinues₁, hnew job₂ hjob₂ hcontinues₂]

theorem OnTrack.persistAnalysis (h : OnTrack s) (hsent : Sent message s)
    (horderly : Orderly (.persistAnalysis message d) s) {u : Unit}
    (ht : StoryBible.persistAnalysis message d s = .ok (u, s')) :
    OnTrack s' ∧ ∀ m, Sent m s → Sent m s' := by
  obtain ⟨hunfinished, hzero⟩ := horderly
  cases hversion : message.payload.storyBibleVersionId with
  | some versionId =>
    rw [StoryBible.persistAnalysis, hversion] at ht
    obtain ⟨_, _, hpure, ht⟩ := Transaction.bind_eq_ok_iff.mp ht
    cases hpure
    obtain ⟨_, s₁, hinsert, hset⟩ := Transaction.bind_eq_ok_iff.mp ht
    have hmoves := ((Moves.refl s).insert hinsert).succeed hset
    have hs' := setStatus_eq_ok hset
    rw [(linkJob.insert_eq_ok_iff.mp hinsert).2] at hs'
    have hcounted : s'.counted = s.counted := by
      rw [hs']
      rfl
    have hbible : s'.bible = s.bible := by
      rw [hs']
      rfl
    refine ⟨h.handOver hmoves hsent hunfinished hversion rfl (by rw [hs']; rfl) ?_ ?_ ?_ ?_,
      hmoves.kept⟩
    · rw [hcounted, hbible]
      exact h.unbuilt
    · intro v hv
      obtain ⟨bible, hsome, hagrees⟩ := h.agrees v hv
      exact ⟨bible, hbible.trans hsome, hagrees.requested, hcounted ▸ hagrees.counted,
        hcounted ▸ hagrees.analyzed, hagrees.total, hcounted ▸ hagrees.ready⟩
    · intro v hv hid
      obtain ⟨current, hcurrent, rfl⟩ := hsent.exists_job
      rw [hcounted]
      exact h.position v hv current hcurrent
        ⟨hid ▸ hversion, hunfinished current hcurrent rfl⟩
    · exact fun _ _ _ => hcounted
  | none =>
    have hzero := hzero hversion
    obtain ⟨current, hcurrent, hmessage⟩ := hsent.exists_job
    obtain ⟨hnodup, htotal⟩ := h.roots current hcurrent (hmessage ▸ hversion)
    rw [hmessage] at hnodup htotal
    rw [StoryBible.persistAnalysis, hversion] at ht
    obtain ⟨versionId, s₁, hcreate, ht⟩ := Transaction.bind_eq_ok_iff.mp ht
    obtain ⟨_, s₂, hinsert, hset⟩ := Transaction.bind_eq_ok_iff.mp ht
    obtain ⟨rfl, hjobs, hcounted, hfresh, v, hversions, hid, hrequested, bible, hbible, hstatus,
      hanalyzed, hbibletotal⟩ := createStoryBibleVersion_spec hcreate hzero
    have hmoves := (((Moves.refl s).congr hjobs).insert hinsert).succeed hset
    have hs' := setStatus_eq_ok hset
    rw [(linkJob.insert_eq_ok_iff.mp hinsert).2] at hs'
    refine ⟨h.build hmoves (congrArg some hid.symm) hrequested (hrequested ▸ hnodup)
      (hid ▸ hfresh) ?_ ?_ ?_ hstatus hanalyzed ?_, hmoves.kept⟩
    · rw [hs', ← hversions]
      rfl
    · rw [hs', ← h.counted_eq_nil hzero, ← hcounted]
      rfl
    · rw [hs', ← hbible]
      rfl
    · rw [hbibletotal, hrequested, htotal]

theorem recordChapterProgress_spec {chapterId : Id} {u : Unit}
    (h : recordChapterProgress chapterId s = .ok (u, s₁)) (hbible : s.bible = some bible) :
    s₁ = { s with
      bible := some { bible with chaptersAnalyzed := bible.chaptersAnalyzed + 1 }
      counted := s.counted ++ [chapterId] } := by
  cases h
  simp [hbible]

theorem finalizeStoryBible_spec {versionId : Id} {u : Unit}
    (h : finalizeStoryBible versionId s = .ok (u, s₁)) :
    s₁.jobs = s.jobs ∧ s₁.counted = s.counted ∧
      s₁.bible = s.bible.map ({ · with status := .ready, currentVersionId := some versionId }) ∧
      ∃ f : StoryBibleVersion → StoryBibleVersion,
        (∀ v, (f v).id = v.id ∧ (f v).requested = v.requested) ∧
          s₁.versions = s.versions.map f := by
  obtain ⟨_, s₂, hcurrent, h⟩ := Transaction.bind_eq_ok_iff.mp h
  obtain ⟨_, s₃, hretire, hready⟩ := Transaction.bind_eq_ok_iff.mp h
  obtain ⟨-, hs₂⟩ := storyBibleVersion.update_eq_ok_iff.mp hcurrent
  obtain ⟨-, hs₃⟩ := storyBibleVersion.update_eq_ok_iff.mp hretire
  cases hready
  rw [hs₃, hs₂]
  refine ⟨rfl, rfl, rfl, _, fun v => ?_, List.map_map⟩
  dsimp only [Function.comp]
  split <;> split <;> exact ⟨rfl, rfl⟩

theorem OnTrack.exists_newest (h : OnTrack s) (hsent : Sent message s)
    (hunfinished : Unfinished message.jobId s) {versionId : Id}
    (hversion : message.payload.storyBibleVersionId = some versionId)
    (hnewest : ∀ v ∈ newestVersion s, v.id = versionId) :
    ∃ v, newestVersion s = some v ∧ v.id = versionId ∧
      v.requested = s.counted ++ message.payload.chapterIds ∧
      ∃ bible, s.bible = some bible ∧ Agrees s v bible := by
  obtain ⟨current, hcurrent, rfl⟩ := hsent.exists_job
  obtain ⟨w, hw, -⟩ := h.known current hcurrent versionId hversion
  obtain ⟨v, hv⟩ : ∃ v, newestVersion s = some v :=
    ⟨_, List.getLast?_eq_some_getLast (List.ne_nil_of_mem hw)⟩
  have hid := hnewest v hv
  exact ⟨v, hv, hid, h.position v hv current hcurrent ⟨hid ▸ hversion, hunfinished current hcurrent rfl⟩,
    h.agrees v hv⟩

theorem Agrees.count (h : Agrees s v bible) {chapterId nextChapterId : Id} {remaining : List Id}
    (hposition : v.requested = s.counted ++ chapterId :: nextChapterId :: remaining)
    (hcounted : s'.counted = s.counted ++ [chapterId]) :
    Agrees s' v { bible with chaptersAnalyzed := bible.chaptersAnalyzed + 1 } where
  requested := h.requested
  counted := ⟨nextChapterId :: remaining, by rw [hcounted, hposition, List.append_assoc]; rfl⟩
  analyzed := by
    rw [hcounted, List.length_append, ← h.analyzed]
    rfl
  total := h.total
  ready := by
    have hbuilding : ¬ bible.status = .ready := by
      rw [h.ready, hposition]
      simp
    refine iff_of_false hbuilding ?_
    rw [hcounted, hposition]
    simp

theorem Agrees.last (h : Agrees s v bible) {chapterId : Id}
    (hposition : v.requested = s.counted ++ [chapterId]) (hcounted : s'.counted = v.requested)
    (versionId : Id) :
    Agrees s' v { bible with
      chaptersAnalyzed := bible.chaptersAnalyzed + 1
      status := .ready
      currentVersionId := some versionId } where
  requested := h.requested
  counted := hcounted ▸ List.prefix_rfl
  analyzed := by
    rw [hcounted, hposition, List.length_append, ← h.analyzed]
    rfl
  total := h.total
  ready := iff_of_true rfl hcounted

theorem OnTrack.complete (h : OnTrack s) (hmoves : Moves (some message.jobId) none s s')
    (hsent : Sent message s) (hunfinished : Unfinished message.jobId s)
    (hv : newestVersion s = some v) (hversion : message.payload.storyBibleVersionId = some v.id)
    {f : StoryBibleVersion → StoryBibleVersion}
    (hf : ∀ v, (f v).id = v.id ∧ (f v).requested = v.requested)
    (hversions : s'.versions = s.versions.map f)
    (hagrees : ∃ bible, s'.bible = some bible ∧ Agrees s' v bible) : OnTrack s' := by
  have hnewest : newestVersion s' = some (f v) := by
    rw [newestVersion, hversions, List.getLast?_map, ← newestVersion, hv, Option.map_some]
  have hnone : ∀ job' ∈ s'.jobs, ¬ job'.Continues v.id := by
    intro job' hjob' hcontinues
    exact Option.not_mem_none _
      (h.message_mem_new hmoves hsent hunfinished hv hversion hjob' hcontinues)
  constructor
  case roots => exact h.roots_of_moves hmoves fun _ hnone => absurd hnone (Option.not_mem_none _)
  case known =>
    intro job' hjob' id hid
    rcases hmoves.source job' hjob' with hnew | ⟨job, hjob, hmessage, -⟩
    · exact absurd hnew (Option.not_mem_none _)
    · obtain ⟨w, hw, rfl⟩ := h.known job hjob id (hmessage ▸ hid)
      rw [hversions]
      exact ⟨f w, List.mem_map_of_mem hw, (hf w).1⟩
  case unbuilt =>
    intro hnone
    rw [hnewest] at hnone
    cases hnone
  case agrees =>
    intro w hw
    cases hnewest.symm.trans hw
    obtain ⟨bible, hsome, hagrees⟩ := hagrees
    refine ⟨bible, hsome, ?_, ?_, hagrees.analyzed, ?_, ?_⟩
    · rw [(hf v).2]
      exact hagrees.requested
    · rw [(hf v).2]
      exact hagrees.counted
    · rw [(hf v).2]
      exact hagrees.total
    · rw [(hf v).2]
      exact hagrees.ready
  case position =>
    intro w hw job' hjob' hcontinues
    cases hnewest.symm.trans hw
    exact absurd ((hf v).1 ▸ hcontinues) (hnone job' hjob')
  case alone =>
    intro w hw job' hjob' _ _ hcontinues
    cases hnewest.symm.trans hw
    exact absurd ((hf v).1 ▸ hcontinues) (hnone job' hjob')

theorem OnTrack.integrateDelta (h : OnTrack s) (hsent : Sent message s) {versionId : Id}
    (hversion : message.payload.storyBibleVersionId = some versionId)
    (horderly : Orderly (.integrateDelta message versionId d) s) {bookVersionId : Id} {u : Unit}
    (ht : StoryBible.integrateDelta bookVersionId message versionId d s = .ok (u, s')) :
    OnTrack s' ∧ ∀ m, Sent m s → Sent m s' := by
  obtain ⟨hunfinished, hnewest⟩ := horderly
  obtain ⟨v, hv, rfl, hposition, bible, hbible, hagrees⟩ :=
    h.exists_newest hsent hunfinished hversion hnewest
  obtain ⟨_, s₁, hrun, ht⟩ := Transaction.bind_eq_ok_iff.mp ht
  obtain ⟨_, s₂, hprogress, ht⟩ := Transaction.bind_eq_ok_iff.mp ht
  have hs₁ := setStatus_eq_ok hrun
  have hrunning : Moves none none s s₁ := by
    refine (Moves.refl s).update (by rw [hs₁]) (.inr fun job hjob hid => ?_)
    exact hunfinished job hjob (of_decide_eq_true hid)
  have hs₂ := recordChapterProgress_spec hprogress
    (show s₁.bible = some bible by rw [hs₁]; exact hbible)
  rw [hs₁] at hs₂
  have hmoves₂ : Moves none none s s₂ := hrunning.congr (by rw [hs₂, hs₁])
  cases hremaining : message.payload.remainingChapterIds with
  | nil =>
    rw [LinkPayload.chapterIds, hremaining] at hposition
    rw [hremaining] at ht
    obtain ⟨_, s₃, hfinalize, ht⟩ := Transaction.bind_eq_ok_iff.mp ht
    obtain ⟨_, s₄, hset, hroot⟩ := Transaction.bind_eq_ok_iff.mp ht
    obtain ⟨hjobs, hcounted, hready, f, hf, hversions⟩ := finalizeStoryBible_spec hfinalize
    have hs₄ := setStatus_eq_ok hset
    have hs' := (linkJob.update_eq_ok_iff.mp hroot).2
    have hmoves : Moves (some message.jobId) none s s' := by
      refine ((hmoves₂.congr hjobs).succeed hset).update (by rw [hs']; rfl) (.inr ?_)
      exact fun job _ hp => (of_decide_eq_true hp).2
    refine ⟨h.complete hmoves hsent hunfinished hv hversion hf ?_ ?_, hmoves.kept⟩
    · rw [hs', hs₄]
      exact hversions.trans (by rw [hs₂])
    · have hcounted' : s'.counted = v.requested := by
        rw [hposition, hs', hs₄]
        exact hcounted.trans (by rw [hs₂])
      refine ⟨_, ?_, hagrees.last hposition hcounted' v.id⟩
      rw [hs', hs₄]
      exact hready.trans (by rw [hs₂]; rfl)
  | cons nextChapterId remaining =>
    rw [LinkPayload.chapterIds, hremaining] at hposition
    rw [hremaining] at ht
    obtain ⟨_, s₃, hinsert, hset⟩ := Transaction.bind_eq_ok_iff.mp ht
    have hmoves := (hmoves₂.insert hinsert).succeed hset
    have hs' := setStatus_eq_ok hset
    rw [(linkJob.insert_eq_ok_iff.mp hinsert).2, hs₂] at hs'
    have hcounted : s'.counted = s.counted ++ [message.payload.chapterId] := by
      rw [hs']
      rfl
    refine ⟨h.handOver hmoves hsent hunfinished hversion hversion ?_ ?_ ?_ ?_ ?_, hmoves.kept⟩
    · rw [hs']
      rfl
    · intro hnone
      rw [hv] at hnone
      cases hnone
    · intro w hw
      cases hv.symm.trans hw
      refine ⟨_, ?_, hagrees.count hposition hcounted⟩
      rw [hs']
      rfl
    · intro w hw _
      cases hv.symm.trans hw
      rw [hposition, hcounted, List.append_assoc]
      rfl
    · intro w hw hid
      cases hv.symm.trans hw
      exact absurd rfl hid

end sessions

/-! ## Runs -/

section runs

variable {bookVersionId : Id} {message : Message}

/-- No message is lost. -/
def KeepsMessages (s s' : BibleStore) : Prop := ∀ m, Sent m s → Sent m s'

instance : IsPreorder BibleStore KeepsMessages where
  refl _ _ h := h
  trans _ _ _ h₁ h₂ m h := h₂ m (h₁ m h)

/-- Orderly accesses stay on track and lose no message. -/
def bibleContract : Contract BibleStore BibleAccess :=
  .ofInvariant Orderly OnTrack KeepsMessages

def Delivered (message : Message) (s : BibleStore) : Prop := OnTrack s ∧ Sent message s

theorem stable_delivered (message : Message) : bibleContract.Stable (Delivered message) :=
  Contract.stable_of_mono fun _ _ _ hkeeps => hkeeps message

theorem evolves_of_moves {done : Option Id} {s s' : BibleStore} (hmoves : Moves done none s s')
    (hbible : s'.bible = s.bible) (hversions : s'.versions = s.versions)
    (hcounted : s'.counted = s.counted) : bibleContract.evolves s s' :=
  fun h => ⟨h.of_moves hmoves hbible hversions hcounted, hmoves.kept⟩

theorem allows_cancel (jobId : Id) :
    bibleContract.Allows (.cancel jobId)
      (Prog.commit ((BibleAccess.cancel jobId).transaction bookVersionId)) := by
  refine Contract.allows_commit _ fun s _ s' _ hok => ?_
  obtain ⟨-, rfl⟩ := linkJob.update_eq_ok_iff.mp hok
  refine evolves_of_moves ((Moves.refl s).update rfl (.inr fun job _ hp => ?_)) rfl rfl rfl
  -- what can be cancelled is not finished
  have hcancellable := (of_decide_eq_true hp).2
  rintro (hsucceeded | hfailed)
  · rw [hsucceeded] at hcancellable
    exact absurd hcancellable (by decide)
  · rw [hfailed] at hcancellable
    exact absurd hcancellable (by decide)

theorem allows_begin (jobId : Id) :
    bibleContract.Allows (.begin jobId)
      (Prog.commit ((BibleAccess.begin jobId).transaction bookVersionId)) := by
  refine Contract.allows_commit _ fun s _ s' hunfinished hok => ?_
  have hs' := setStatus_eq_ok hok
  refine evolves_of_moves ((Moves.refl s).update (by rw [hs']) (.inr fun job hjob hp => ?_))
    (by rw [hs']) (by rw [hs']) (by rw [hs'])
  exact hunfinished job hjob (of_decide_eq_true hp)

theorem allows_fail (jobId : Id) :
    bibleContract.Allows (.fail jobId)
      (Prog.commit ((BibleAccess.fail jobId).transaction bookVersionId)) := by
  refine Contract.allows_commit _ fun s _ s' _ hok => ?_
  have hs' := setStatus_eq_ok hok
  exact evolves_of_moves ((Moves.refl s).update (by rw [hs']) (.inl (.inr rfl)))
    (by rw [hs']) (by rw [hs']) (by rw [hs'])

theorem allows_create (r : StartAnalysis) {firstChapterId : Id} {remaining : List Id}
    (hchapters : r.chapterIds = firstChapterId :: remaining) :
    bibleContract.Allows (.create (rootJob bookVersionId r firstChapterId remaining))
      (Prog.commit ((BibleAccess.create (rootJob bookVersionId r firstChapterId remaining)).transaction
        bookVersionId)) := by
  refine Contract.allows_commit _ fun s _ s' _ hok h => ?_
  have hnodup : (firstChapterId :: remaining).Nodup := hchapters ▸ r.nodup
  exact ⟨h.create hok rfl hnodup rfl, ((Moves.refl s).insert hok).kept⟩

theorem triple_handleAnalyzeScene (d : Delivery) :
    bibleContract.Triple (Delivered message) (handleAnalyzeScene bookVersionId message d)
      fun _ _ => True := by
  have hstable := stable_delivered message
  have hrun : ∀ a, bibleContract.Allows a (Prog.commit (a.transaction bookVersionId)) →
      bibleContract.Triple (Delivered message) (run bookVersionId a) fun _ => Delivered message := by
    intro a hallows
    refine Contract.triple_atomically hstable fun s u s' hs ha hok => ?_
    have hevolves := hallows s ha
    rw [Prog.commit_of_ok hok] at hevolves
    exact ⟨hevolves, hstable s s' hevolves hs⟩
  refine Contract.Triple.bind (G := fun _ => Delivered message)
    (Contract.triple_read hstable fun s hs => hs) fun found => ?_
  cases found with
  | none => exact Contract.triple_throw
  | some job =>
    dsimp only
    split
    · exact Contract.triple_pure fun _ _ => trivial
    refine Contract.Triple.bind (hrun _ (allows_begin message.jobId)) fun _ => ?_
    split
    · split
      · exact Contract.Triple.bind (hrun _ (allows_fail message.jobId)) fun _ => Contract.triple_throw
      · exact Contract.triple_throw
    · refine Contract.triple_atomically hstable fun s u s' hs ha hok => ⟨fun _ => ?_, trivial⟩
      exact hs.1.persistAnalysis hs.2 ha hok

theorem triple_handleBuildStoryBibleDelta (d : Delivery) :
    bibleContract.Triple (Delivered message) (handleBuildStoryBibleDelta bookVersionId message d)
      fun _ _ => True := by
  have hstable := stable_delivered message
  refine Contract.Triple.bind (G := fun _ => Delivered message)
    (Contract.triple_read hstable fun s hs => hs) fun found => ?_
  cases found with
  | none => exact Contract.triple_pure fun _ _ => trivial
  | some job =>
    dsimp only
    split
    · exact Contract.triple_pure fun _ _ => trivial
    cases hversion : message.payload.storyBibleVersionId with
    | none => exact Contract.triple_throw
    | some versionId =>
      refine Contract.Triple.bind (G := fun _ => Delivered message)
        (Contract.triple_read hstable fun s hs => hs) fun missing => ?_
      split
      · exact Contract.triple_throw
      · refine Contract.triple_atomically hstable fun s u s' hs ha hok => ⟨fun _ => ?_, trivial⟩
        exact hs.1.integrateDelta hs.2 hversion ha hok

theorem always_startAnalysis (r : StartAnalysis) :
    (startAnalysis bookVersionId r).Always bibleContract.Allows := by
  refine Prog.always_bind (Prog.always_read (Contract.allows_id _ _)) fun isRunning => ?_
  split
  · trivial
  · cases hchapters : r.chapterIds with
    | nil => trivial
    | cons firstChapterId remaining => exact Prog.always_atomically (allows_create r hchapters)

theorem onTrack_of_init {s : BibleStore} (h : (bibleSystem bookVersionId).init s) : OnTrack s := by
  obtain ⟨hjobs, hbible, hversions, hcounted⟩ := h
  have hnone : newestVersion s = none := by rw [newestVersion, hversions, List.getLast?_nil]
  have hnojob : ∀ job ∈ s.jobs, False := fun job hjob => List.not_mem_nil (hjobs ▸ hjob)
  refine ⟨fun job hjob => (hnojob job hjob).elim, fun job hjob => (hnojob job hjob).elim,
    fun _ => ⟨hbible, hcounted⟩, fun v hv => ?_, fun v hv job hjob => (hnojob job hjob).elim,
    fun v hv job hjob => (hnojob job hjob).elim⟩
  rw [hnone] at hv
  cases hv

theorem respects_bibleContract (bookVersionId : Id) :
    (bibleSystem bookVersionId).Respects bibleContract := by
  rintro s₀ s i hinit hevolves henabled
  have htrack : OnTrack s := (hevolves (onTrack_of_init hinit)).1
  cases i with
  | startAnalysis r => exact Contract.safe_of_always (always_startAnalysis r)
  | cancelJob jobId => exact Contract.safe_of_always (Prog.always_atomically (allows_cancel jobId))
  | deliver message d =>
    show bibleContract.Safe (if message.type = .buildStoryBibleDelta then _ else _) s
    split
    · exact (triple_handleBuildStoryBibleDelta d).safe ⟨htrack, henabled⟩
    · exact (triple_handleAnalyzeScene d).safe ⟨htrack, henabled⟩

end runs

/-- In every run of orderly accesses the story bible is in bounds. -/
theorem inBounds_of_orderly {bookVersionId : Id} {c : Config BibleStore BibleAccess BibleError}
    (hc : (bibleSystem bookVersionId).Reachable Orderly c) : InBounds c.store := by
  obtain ⟨s₀, hinit, hevolves⟩ := (respects_bibleContract bookVersionId).evolves_of_reachable hc
  exact (hevolves (onTrack_of_init hinit)).1.inBounds

/-! ## One Chapter -/

/-- An analysis of the only chapter, chapter 3, of book version 2. -/
def analysisOfChapter (jobId : Id) : StartAnalysis where
  jobId := jobId
  mode := .incremental
  chapterIds := [3]
  nodup := List.nodup_singleton 3

/-- The analysis is requested, and then its two links are delivered. -/
def analyzed (thread : ℕ) (jobId versionId deltaId : Id) : List (Move BibleRequest BibleError) :=
  let root := rootJob 2 (analysisOfChapter jobId) 3 []
  let d : Delivery := { newVersionId := versionId, nextJobId := deltaId, modelVersionId := 9 }
  [.spawn (.startAnalysis (analysisOfChapter jobId)), .proceed thread, .proceed thread,
    .spawn (.deliver root.message d), .proceed (thread + 1), .proceed (thread + 1),
      .proceed (thread + 1),
    .spawn (.deliver (deltaJob deltaId versionId 9 root.message.payload).message d),
      .proceed (thread + 2), .proceed (thread + 2), .proceed (thread + 2)]

def coverage (s : BibleStore) : Option (StoryBibleStatus × ℕ × ℕ) :=
  s.bible.map fun bible => (bible.status, bible.chaptersAnalyzed, bible.chaptersTotal)

theorem inBounds_analyzedOnce : ∃ c, (bibleSystem 2).Reachable Orderly c ∧
    coverage c.store = some (.ready, 1, 1) ∧ InBounds c.store := by
  have hplay : ((bibleSystem 2).playAll Orderly ⟨{}, []⟩ (analyzed 0 10 20 11)).map
      (fun c => coverage c.store) = some (some (.ready, 1, 1)) := by decide +kernel
  obtain ⟨c, hrun, hcoverage⟩ := System.exists_run_of_playAll (f := coverage) hplay
  have hreach : (bibleSystem 2).Reachable Orderly c := ⟨{}, ⟨rfl, rfl, rfl, rfl⟩, hrun⟩
  exact ⟨c, hreach, hcoverage, inBounds_of_orderly hreach⟩

/-- A book that is analysed again counts its chapter again. -/
theorem not_forall_inBounds :
    ¬ ∀ c, (bibleSystem 2).Reachable anyAccess c → InBounds c.store := by
  intro h
  have hplay : ((bibleSystem 2).playAll anyAccess ⟨{}, []⟩
      (analyzed 0 10 20 11 ++ analyzed 3 12 21 13)).map (fun c => coverage c.store) =
      some (some (.ready, 2, 1)) := by decide +kernel
  obtain ⟨c, hrun, hcoverage⟩ := System.exists_run_of_playAll (f := coverage) hplay
  obtain ⟨bible, hbible, heq⟩ := Option.map_eq_some_iff.mp hcoverage
  have hbounded := (h c ⟨{}, ⟨rfl, rfl, rfl, rfl⟩, hrun⟩).bounded bible hbible
  simp only [Prod.mk.injEq] at heq
  obtain ⟨-, hanalyzed, htotal⟩ := heq
  rw [hanalyzed, htotal] at hbounded
  exact absurd hbounded (by decide)

end AudioBook.StoryBible
