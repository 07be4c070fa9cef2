import AudioBook.Assembly.Retries
import AudioBook.Schema.Constraints

/-!
# Recording a Failed Encode

On the last attempt the processor of encodes records the error of its `try` block: it fails the
job, and leaves a `FAILED` rendition of the format. The rendition is looked up by its audiobook
and format whatever its status, and where there is none, a placeholder without a chapter is
inserted whatever the format.

Main results:

- `failEncode_commits_iff`: the transaction of the handler commits exactly for the single-file
  formats.
- `failureRecorded_iff`: after an error on the last attempt, the failure is recorded exactly where
  it is recordable.
-/

namespace AudioBook

open Relational Concurrent

/-! ## The Transaction of the Handler -/

/-- The constraints of the tables that the processor of encodes writes. -/
structure EncodeTables (s : Store) : Prop where
  jobs : Db.processingJob.Holds s
  renditions : Db.audiobookRendition.Holds s
  audiobooks : Db.audiobook.Holds s

section transaction

variable {s : Store} {jobId audiobookId newId : Id} {format : DeliveryFormat}

theorem markFailed_eq_ok (hjobs : Db.processingJob.Holds s) (hfound : (findJob jobId s).isSome)
    (errorCode : ErrorCode) :
    ∃ jobs, markFailed jobId errorCode s = .ok ((), { s with processingJobs := jobs }) := by
  have hok := Db.processingJob_accepts_iff.mp hjobs
  refine ⟨_, updateJob_eq_ok_iff.mpr ⟨hfound, ?_, rfl⟩⟩
  exact Db.processingJob_accepts_iff.mpr {
    id := nodup_map_updateWhere hok.id fun _ => rfl
    activeKey := hok.activeKey.updateWhere_of_retire fun _ _ _ => .inl (by
      simp [ProcessingJob.activeIdempotencyKey])
    attemptCount := forall_mem_updateWhere hok.attemptCount fun r hr _ => hok.attemptCount r hr
    errorCode := forall_mem_updateWhere hok.errorCode fun _ _ _ _ => rfl
    parent := hok.parent.updateWhere (fun _ => rfl) fun r hr _ => hok.parent r hr }

theorem setAudiobookStatus_eq_ok (haudiobooks : Db.audiobook.Holds s) (audiobookId : Id)
    (status : AudiobookStatus) :
    setAudiobookStatus audiobookId status s =
      .ok ((), { s with audiobooks := withStatus audiobookId status s.audiobooks }) := by
  have hok := Db.audiobook_accepts_iff.mp haudiobooks
  refine (Table.update_eq_ok_iff (ε := Fault) _).mpr ⟨?_, rfl⟩
  exact Db.audiobook_accepts_iff.mpr {
    id := nodup_map_updateWhere hok.id fun _ => rfl
    version := nodup_map_updateWhere hok.version fun _ => rfl
    current := hok.current.updateWhere_of_retire fun _ _ _ => .inr rfl }

theorem accepts_withFailedRendition_iff (hrenditions : Db.audiobookRendition.Holds s)
    (hnew : newId ∉ s.audiobookRenditions.map AudiobookRendition.id) :
    Db.audiobookRendition.Accepts (withFailedRendition audiobookId format
      ((findRendition audiobookId format none s).map AudiobookRendition.id) newId
      s.audiobookRenditions) ↔ format ≠ .mp3PerChapter := by
  have hok := Db.audiobookRendition_accepts_iff.mp hrenditions
  rw [Db.audiobookRendition_accepts_iff]
  cases hfound : findRendition audiobookId format none s with
  | some r =>
    have hmem := List.mem_of_find?_eq_some hfound
    have hkey := List.find?_some hfound
    obtain ⟨-, rfl, hchapter⟩ := of_decide_eq_true hkey
    refine iff_of_true ?_ fun hformat => by simpa [hchapter] using (hok.mp3PerChapter r hmem).mp hformat
    exact {
      id := nodup_map_updateWhere hok.id fun _ => rfl
      target := nodup_map_updateWhere hok.target fun _ => rfl
      mp3PerChapter := forall_mem_updateWhere hok.mp3PerChapter fun r hr _ => hok.mp3PerChapter r hr }
  | none =>
    have hnone := List.find?_eq_none.mp hfound
    simp only [decide_eq_true_eq, not_and] at hnone
    constructor
    · rintro haccepts hformat
      simpa using (haccepts.mp3PerChapter _ (List.mem_append_right _ (List.mem_singleton_self _))).mp
        hformat
    · intro hformat
      refine ⟨?_, ?_, ?_⟩
      · simpa [withFailedRendition, List.nodup_append] using
          ⟨hok.id, fun r hr heq => hnew (List.mem_map.mpr ⟨r, hr, heq⟩)⟩
      · simpa [withFailedRendition, List.nodup_append] using
          ⟨hok.target, fun r hr h₁ h₂ => hnone r hr h₁ h₂⟩
      · intro r hr
        rcases List.mem_append.mp hr with hr | hr
        · exact hok.mp3PerChapter r hr
        · obtain rfl := List.mem_singleton.mp hr
          simpa using hformat

theorem failRendition_eq_ok_of_accepts {existing : Option Id}
    (haccepts : Db.audiobookRendition.Accepts
      (withFailedRendition audiobookId format existing newId s.audiobookRenditions)) :
    failRendition audiobookId format existing newId s = .ok ((), { s with
      audiobookRenditions :=
        withFailedRendition audiobookId format existing newId s.audiobookRenditions }) := by
  cases existing with
  | some renditionId => exact (Table.update_eq_ok_iff (ε := Fault) _).mpr ⟨haccepts, rfl⟩
  | none => exact (Table.insert_eq_ok_iff (ε := Fault) _).mpr ⟨haccepts, rfl⟩

theorem failEncode_commits_iff (hs : EncodeTables s) (hfound : (findJob jobId s).isSome)
    (hnew : newId ∉ s.audiobookRenditions.map AudiobookRendition.id) (errorCode : ErrorCode)
    (failAudiobook : Bool) :
    Prog.Commits (failEncode jobId errorCode audiobookId format
      ((findRendition audiobookId format none s).map AudiobookRendition.id) newId failAudiobook) s ↔
        format ≠ .mp3PerChapter := by
  rw [← accepts_withFailedRendition_iff hs.renditions hnew]
  constructor
  · rintro ⟨u, s', h⟩
    exact (failEncode_eq_ok h).1
  · intro haccepts
    obtain ⟨jobs, hjob⟩ := markFailed_eq_ok hs.jobs hfound errorCode
    have hrendition := failRendition_eq_ok_of_accepts (s := { s with processingJobs := jobs })
      haccepts
    rw [Prog.Commits, failEncode]
    rw [Transaction.bind_eq_of_ok hjob, Transaction.bind_eq_of_ok hrendition]
    cases failAudiobook with
    | true =>
      exact ⟨_, _, setAudiobookStatus_eq_ok (s := { s with
        processingJobs := jobs
        audiobookRenditions := _ }) hs.audiobooks _ _⟩
    | false => exact ⟨_, _, rfl⟩

theorem failEncode_leaves {errorCode : ErrorCode} {existing : Option Id} {failAudiobook : Bool}
    {s' : Store} {u : Unit} (hs : EncodeTables s)
    (h : failEncode jobId errorCode audiobookId format existing newId failAudiobook s =
      .ok (u, s')) :
    EncodeTables s' ∧ HasStatus jobId (· = .failed) s' ∧ s'.audiobookRenditions =
      withFailedRendition audiobookId format existing newId s.audiobookRenditions := by
  obtain ⟨_, s₁, h₁, h⟩ := Transaction.bind_eq_ok_iff.mp h
  obtain ⟨_, s₂, h₂, h⟩ := Transaction.bind_eq_ok_iff.mp h
  have hfailed : HasStatus jobId (· = .failed) s₁ :=
    hasStatus_of_updateJob h₁ (fun _ => rfl) fun _ => rfl
  obtain ⟨-, hjobs, rfl⟩ := updateJob_eq_ok_iff.mp h₁
  obtain ⟨hrenditions, rfl⟩ := failRendition_eq_ok h₂
  cases failAudiobook with
  | true =>
    obtain ⟨haudiobooks, rfl⟩ := (Table.update_eq_ok_iff (ε := Fault) _).mp h
    exact ⟨⟨hjobs, hrenditions, haudiobooks⟩, hfailed, rfl⟩
  | false =>
    cases h
    exact ⟨⟨hjobs, hrenditions, hs.audiobooks⟩, hfailed, rfl⟩

variable {r : AudiobookRendition}

private theorem find?_slot_eq_some_iff (hs : Db.audiobookRendition.Holds s)
    {p : AudiobookRendition → Prop} [DecidablePred p]
    (hp : ∀ r, p r → r.audiobookId = audiobookId ∧ r.format = format ∧ r.chapterId = none) :
    s.audiobookRenditions.find? (fun r => decide (p r)) = some r ↔
      r ∈ s.audiobookRenditions ∧ p r := by
  have hok := Db.audiobookRendition_accepts_iff.mp hs
  constructor
  · intro h
    have hr := List.find?_some h
    exact ⟨List.mem_of_find?_eq_some h, of_decide_eq_true hr⟩
  · rintro ⟨hmem, hr⟩
    cases h : s.audiobookRenditions.find? fun r => decide (p r) with
    | none => exact absurd hr (by simpa using List.find?_eq_none.mp h r hmem)
    | some r' =>
      have hr' := List.find?_some h
      obtain ⟨h₁, h₂, h₃⟩ := hp r hr
      obtain ⟨h₁', h₂', h₃'⟩ := hp r' (of_decide_eq_true hr')
      refine congrArg some (List.inj_on_of_nodup_map hok.target (List.mem_of_find?_eq_some h) hmem ?_)
      rw [h₁, h₂, h₃, h₁', h₂', h₃']

theorem findRendition_eq_some_iff (hs : Db.audiobookRendition.Holds s) :
    findRendition audiobookId format none s = some r ↔ r ∈ s.audiobookRenditions ∧
      r.audiobookId = audiobookId ∧ r.format = format ∧ r.chapterId = none :=
  find?_slot_eq_some_iff hs fun _ hr => hr

theorem readyRendition_eq_some_iff (hs : Db.audiobookRendition.Holds s) :
    readyRendition audiobookId format s = some r ↔
      findRendition audiobookId format none s = some r ∧ r.status = .ready := by
  rw [findRendition_eq_some_iff hs, readyRendition,
    find?_slot_eq_some_iff hs fun _ hr => ⟨hr.1, hr.2.1, hr.2.2.2⟩]
  tauto

end transaction

/-! ## Other Services -/

/-- Every `READY` rendition stays `READY`. -/
def ReadyStay (s s' : Store) : Prop :=
  ∀ r ∈ s.audiobookRenditions, r.status = .ready →
    ∃ r' ∈ s'.audiobookRenditions, r'.id = r.id ∧ r'.status = .ready

/-- What others may do while a format of an audiobook is encoded: anything, except that nobody
else writes the status of the job or the rendition of the format, or takes a `READY` rendition
back. The constraints of the tables stay satisfied. -/
structure EncodesApart (jobId audiobookId : Id) (format : DeliveryFormat) (s s' : Store) :
    Prop where
  status : ∀ st, HasStatus jobId (· = st) s' ↔ HasStatus jobId (· = st) s
  rendition : findRendition audiobookId format none s' = findRendition audiobookId format none s
  ready : ReadyStay s s'
  tables : EncodeTables s → EncodeTables s'

instance : IsPreorder Store ReadyStay where
  refl _ r hr hready := ⟨r, hr, rfl, hready⟩
  trans _ _ _ h₁ h₂ r hr hready := by
    obtain ⟨r', hr', hid, hready'⟩ := h₁ r hr hready
    obtain ⟨r'', hr'', hid', hready''⟩ := h₂ r' hr' hready'
    exact ⟨r'', hr'', hid'.trans hid, hready''⟩

instance (jobId audiobookId : Id) (format : DeliveryFormat) :
    IsPreorder Store (EncodesApart jobId audiobookId format) where
  refl s := ⟨fun _ => Iff.rfl, rfl, refl_of ReadyStay s, id⟩
  trans _ _ _ h₁ h₂ := ⟨fun st => (h₂.status st).trans (h₁.status st),
    h₂.rendition.trans h₁.rendition, trans_of ReadyStay h₁.ready h₂.ready, h₂.tables ∘ h₁.tables⟩

theorem encodesApart_nextId (jobId audiobookId : Id) (format : DeliveryFormat) (s : Store) (n : ℕ) :
    EncodesApart jobId audiobookId format s { s with nextId := n } :=
  ⟨fun _ => Iff.rfl, rfl, fun r hr hready => ⟨r, hr, rfl, hready⟩,
    fun h => ⟨h.jobs, h.renditions, h.audiobooks⟩⟩

/-! ## The Handler -/

section handler

variable {others : Store → Store → Prop} {jobId audiobookId : Id} {format : DeliveryFormat}
  (hothers : ∀ s s', others s s' → EncodesApart jobId audiobookId format s s')
  {α β : Type} {s s' : Store} {es : List AccessEvent}

variable {r : Ending Fault β}

theorem runs_query_bind_of_done {f : Store → α} {k : α → Service β}
    (h : (query f >>= k).Runs others s es r s') (hr : r ≠ .crashed)
    (hdone : ∀ x ∈ es, x.fate = .done) :
    ∃ s₁ es', others s s₁ ∧ es = ⟨.query, s₁, .done⟩ :: es' ∧
      (k (f s₁)).Runs others s₁ es' r s' :=
  Prog.runs_access_of_done h hr hdone

theorem runs_freshId_bind_of_done {k : Id → Service β} (h : (freshId >>= k).Runs others s es r s')
    (hr : r ≠ .crashed) (hdone : ∀ x ∈ es, x.fate = .done) :
    ∃ s₁ es', others s s₁ ∧ es = ⟨.freshId, s₁, .done⟩ :: es' ∧
      (k s₁.nextId).Runs others { s₁ with nextId := s₁.nextId + 1 } es' r s' :=
  Prog.runs_access_of_done h hr hdone

theorem runs_perform_throw_of_done {a : Access} {err : Fault}
    (h : (perform a >>= fun _ => (throw err : Service β)).Runs others s es r s') (hr : r ≠ .crashed)
    (hdone : ∀ x ∈ es, x.fate = .done) :
    ∃ s₁, others s s₁ ∧ es = [⟨a, s₁, .done⟩] ∧ others (Prog.commit a.tx s₁) s' := by
  obtain ⟨s₁, es', hs₁, rfl, hrest⟩ := Prog.runs_access_of_done h hr hdone
  refine ⟨s₁, hs₁, ?_⟩
  have hraise : ∃ e, Prog.bind (Prog.outcome a.tx s₁) (fun _ => (throw err : Service β)) =
      Prog.raise e := by
    rw [Prog.outcome]
    split
    · exact ⟨err, rfl⟩
    · next e _ => exact ⟨e, rfl⟩
  obtain ⟨e, he⟩ := hraise
  change Prog.Runs others (Prog.bind (Prog.outcome a.tx s₁) _) _ es' r s' at hrest
  rw [he] at hrest
  cases hrest with
  | raise h' => exact ⟨rfl, h'⟩

include hothers

theorem runs_handleEncodeFailure {job : ProcessingJob} {audiobook : Audiobook} {err : Fault}
    {d : Delivery} {e : Fault} (hfinal : d.isFinalAttempt) (hjob : job.id = jobId)
    (haudiobook : audiobook.id = audiobookId)
    (h : (handleEncodeFailure job audiobook format err d >>= fun _ =>
      (throw err : Service Unit)).Runs others s es (.raised e) s')
    (hdone : ∀ x ∈ es, x.fate = .done) :
    ((∀ st, HasStatus jobId (· = st) s → st = .failed) ∧
        EncodesApart jobId audiobookId format s s') ∨
      ∃ t seen errorCode newId failAudiobook, seen ≠ .failed ∧ HasStatus jobId (· = seen) s ∧
        EncodesApart jobId audiobookId format s t ∧
        (⟨.failEncode jobId seen errorCode audiobookId format
          ((findRendition audiobookId format none t).map AudiobookRendition.id) newId failAudiobook,
          t, .done⟩ : AccessEvent) ∈ es ∧
        EncodesApart jobId audiobookId format (Prog.commit (failEncode jobId errorCode audiobookId
          format ((findRendition audiobookId format none t).map AudiobookRendition.id) newId
          failAudiobook) t) s' := by
  subst hjob haudiobook
  have htrans {s₁ s₂ s₃ : Store} := @trans_of Store
    (EncodesApart job.id audiobook.id format) s₁ s₂ s₃ _
  unfold handleEncodeFailure at h
  simp only [hfinal, not_true_eq_false, if_false] at h
  rw [Prog.bind_assoc] at h
  obtain ⟨t₁, es₁, ht₁, rfl, h₁⟩ := runs_query_bind_of_done h nofun hdone
  have hs₁ := hothers _ _ ht₁
  cases hcurrent : findJob job.id t₁ with
  | none =>
    simp only [hcurrent] at h₁
    cases h₁ with
    | raise h' =>
      refine .inl ⟨fun st hst => ?_, htrans hs₁ (hothers _ _ h')⟩
      obtain ⟨row, hrow, -⟩ := (hs₁.status st).mpr hst
      simp [hcurrent] at hrow
  | some current =>
    have hstatus : HasStatus job.id (· = current.status) s :=
      (hs₁.status _).mp ⟨current, hcurrent, rfl⟩
    simp only [hcurrent] at h₁
    by_cases hfailed : current.status = .failed
    · simp only [hfailed, if_true] at h₁
      cases h₁ with
      | raise h' =>
        refine .inl ⟨fun st hst => ?_, htrans hs₁ (hothers _ _ h')⟩
        obtain ⟨row, hrow, rfl⟩ := (hs₁.status st).mpr hst
        rw [hcurrent] at hrow
        cases hrow
        exact hfailed
    · simp only [hfailed, if_false] at h₁
      have hdone₁ : ∀ x ∈ es₁, x.fate = .done := fun x hx => hdone x (List.mem_cons_of_mem _ hx)
      rw [Prog.bind_assoc] at h₁
      obtain ⟨t₂, es₂, ht₂, rfl, h₂⟩ := runs_query_bind_of_done h₁ nofun hdone₁
      rw [Prog.bind_assoc] at h₂
      obtain ⟨t₃, es₃, ht₃, rfl, h₃⟩ := runs_freshId_bind_of_done h₂ nofun
        fun x hx => hdone₁ x (by simp [hx])
      rw [Prog.bind_assoc] at h₃
      obtain ⟨t₄, es₄, ht₄, rfl, h₄⟩ := runs_query_bind_of_done h₃ nofun
        fun x hx => hdone₁ x (by simp [hx])
      obtain ⟨t₅, ht₅, rfl, hlast⟩ := runs_perform_throw_of_done h₄ nofun
        fun x hx => hdone₁ x (by simp [hx])
      -- The rendition is the same from the lookup to the transaction.
      have hlookup : EncodesApart job.id audiobook.id format t₂ t₅ :=
        htrans (hothers _ _ ht₃) (htrans (encodesApart_nextId _ _ _ t₃ _)
          (htrans (hothers _ _ ht₄) (hothers _ _ ht₅)))
      refine .inr ⟨t₅, current.status, errorCodeOf err .deliveryFormatEncodeFailed, t₃.nextId,
        (findAudiobook audiobook.id t₄).any fun a => decide (a.status ≠ .ready), hfailed, hstatus,
        htrans hs₁ (htrans (hothers _ _ ht₂) hlookup), ?_, ?_⟩
      · rw [hlookup.rendition]
        simp
      · rw [hlookup.rendition]
        exact hothers _ _ hlast

end handler

/-! ## Recorded Failures -/

/-- From the store `s₁` in which the error was raised, an open job was failed, and neither a job
that had succeeded nor a `READY` rendition lost that status. -/
structure FailureRecorded (jobId : Id) (s₁ s' : Store) : Prop where
  failed : JobOpen jobId s₁ → HasStatus jobId (· = .failed) s'
  succeeded : HasStatus jobId (· = .succeeded) s₁ → HasStatus jobId (· = .succeeded) s'
  ready : ReadyStay s₁ s'

/-- The error that was raised in the store `s₁` is one that the handler records: the job is open,
the error comes from the `try` block, the format is a single file, and has no `READY` rendition.
The error is one that the handler leaves alone when the job has succeeded: it comes from outside
the `try` block, or the format is none of a single file. -/
structure Recordable (jobId audiobookId : Id) (format : DeliveryFormat) (started : Prop)
    (s₁ : Store) : Prop where
  failed : JobOpen jobId s₁ →
    started ∧ format ≠ .mp3PerChapter ∧ readyRendition audiobookId format s₁ = none
  succeeded : HasStatus jobId (· = .succeeded) s₁ → started → format = .mp3PerChapter

theorem HasStatus.unique {jobId : Id} {Q Q' : JobStatus → Prop} {s : Store}
    (h : HasStatus jobId Q s) (h' : HasStatus jobId Q' s) : ∃ st, Q st ∧ Q' st := by
  obtain ⟨job, hjob, hq⟩ := h
  obtain ⟨job', hjob', hq'⟩ := h'
  rw [hjob] at hjob'
  cases hjob'
  exact ⟨job.status, hq, hq'⟩

section recorded

variable {jobId audiobookId newId : Id} {format : DeliveryFormat} {s₁ t s' : Store}

theorem readyStay_iff_of_failEncode (hs₁ : Db.audiobookRendition.Holds s₁)
    (ht : EncodeTables t) (hst : EncodesApart jobId audiobookId format s₁ t) {u : Store}
    (hu : EncodeTables u) (hrenditions : u.audiobookRenditions = withFailedRendition audiobookId format
      ((findRendition audiobookId format none t).map AudiobookRendition.id) newId
      t.audiobookRenditions) (hus : EncodesApart jobId audiobookId format u s') :
    ReadyStay s₁ s' ↔ readyRendition audiobookId format s₁ = none := by
  have hids := (Db.audiobookRendition_accepts_iff.mp ht.renditions).id
  cases hfound : findRendition audiobookId format none t with
  | none =>
    -- The placeholder is a new row.
    have hnone : readyRendition audiobookId format s₁ = none := by
      rw [Option.eq_none_iff_forall_not_mem]
      intro r hr
      obtain ⟨hr, -⟩ := (readyRendition_eq_some_iff hs₁).mp hr
      rw [← hst.rendition, hfound] at hr
      cases hr
    refine iff_of_true (trans_of ReadyStay hst.ready (trans_of ReadyStay ?_ hus.ready)) hnone
    intro r hr hready
    refine ⟨r, ?_, rfl, hready⟩
    rw [hrenditions, hfound]
    exact List.mem_append_left _ hr
  | some r =>
    have hmem := List.mem_of_find?_eq_some hfound
    have hfound₁ : findRendition audiobookId format none s₁ = some r := hst.rendition ▸ hfound
    have hkey := List.find?_some hfound
    have hrows : u.audiobookRenditions = updateWhere (fun r' => decide (r'.id = r.id))
        (fun r' => { r' with status := .failed }) t.audiobookRenditions := by
      rw [hrenditions, hfound]
      rfl
    constructor
    · intro hstay
      rw [Option.eq_none_iff_forall_not_mem]
      intro r₁ hr₁
      obtain ⟨hr₁, hready⟩ := (readyRendition_eq_some_iff hs₁).mp hr₁
      obtain rfl : r = r₁ := Option.some.inj (hfound₁.symm.trans hr₁)
      -- The slot holds the rendition as `FAILED` now, and no other row has its id.
      have hfailed : findRendition audiobookId format none s' = some { r with status := .failed } := by
        rw [hus.rendition, findRendition_eq_some_iff hu.renditions, hrows]
        refine ⟨mem_updateWhere.mpr (.inl ⟨r, hmem, by simp, rfl⟩), ?_⟩
        exact of_decide_eq_true hkey
      have hs' := (hus.tables hu).renditions
      obtain ⟨r', hr', hid, hready'⟩ :=
        hstay r ((findRendition_eq_some_iff hs₁).mp hfound₁).1 hready
      have heq := List.inj_on_of_nodup_map (Db.audiobookRendition_accepts_iff.mp hs').id hr'
        ((findRendition_eq_some_iff hs').mp hfailed).1 hid
      rw [heq] at hready'
      cases hready'
    · intro hnone
      refine trans_of ReadyStay hst.ready (trans_of ReadyStay ?_ hus.ready)
      intro r₂ hr₂ hready
      have hne : r₂.id ≠ r.id := fun hid => by
        obtain rfl := List.inj_on_of_nodup_map hids hr₂ hmem hid
        rw [(readyRendition_eq_some_iff hs₁).mpr ⟨hfound₁, hready⟩] at hnone
        cases hnone
      refine ⟨r₂, ?_, rfl, hready⟩
      rw [hrows]
      exact mem_updateWhere.mpr (.inr ⟨hr₂, by simpa using hne⟩)

/-- The id under which a placeholder is inserted is the id of no rendition: `generateId` hands out
no id twice. -/
def FreshPlaceholder (x : AccessEvent) : Prop :=
  match x.label with
  | .failEncode _ _ _ _ _ _ newId _ => newId ∉ x.store.audiobookRenditions.map AudiobookRendition.id
  | _ => True

variable {others : Store → Store → Prop}
  (hothers : ∀ s s', others s s' → EncodesApart jobId audiobookId format s s')

include hothers

theorem failureRecorded_iff_of_handler {job : ProcessingJob} {audiobook : Audiobook} {err : Fault}
    {d : Delivery} {e : Fault} {s : Store} {es : List AccessEvent} (hfinal : d.isFinalAttempt)
    (hjob : job.id = jobId) (haudiobook : audiobook.id = audiobookId)
    (h : (handleEncodeFailure job audiobook format err d >>= fun _ =>
      (throw err : Service Unit)).Runs others s es (.raised e) s')
    (hdone : ∀ x ∈ es, x.fate = .done) (hfresh : ∀ x ∈ es, FreshPlaceholder x)
    (hs₁ : EncodeTables s₁) (hstart : EncodesApart jobId audiobookId format s₁ s) :
    FailureRecorded jobId s₁ s' ↔ Recordable jobId audiobookId format True s₁ := by
  rcases runs_handleEncodeFailure hothers hfinal hjob haudiobook h hdone with
    ⟨hfailed, happart⟩ | ⟨t, seen, errorCode, newId, failAudiobook, hseen, hstatus, hst, hmem, hlast⟩
  · -- The handler did nothing: the job is gone or `FAILED`.
    have hnone : ∀ Q : JobStatus → Prop, ¬ Q .failed → ¬ HasStatus jobId Q s₁ := by
      rintro Q hQ ⟨row, hrow, hq⟩
      have hrowFailed := hfailed row.status ((hstart.status _).mpr ⟨row, hrow, rfl⟩)
      exact hQ (hrowFailed ▸ hq)
    have hopen : ¬ JobOpen jobId s₁ := hnone _ (by simp [JobStatus.IsSkipped])
    have hsucceeded : ¬ HasStatus jobId (· = .succeeded) s₁ := hnone _ (by simp)
    exact iff_of_true
      ⟨fun h => absurd h hopen, fun h => absurd h hsucceeded,
        trans_of ReadyStay hstart.ready happart.ready⟩
      ⟨fun h => absurd h hopen, fun h => absurd h hsucceeded⟩
  · have hst₁ := trans_of (EncodesApart jobId audiobookId format) hstart hst
    have ht := hst₁.tables hs₁
    have hstatus₁ := (hstart.status seen).mp hstatus
    have hfound : (findJob jobId t).isSome := by
      obtain ⟨row, hrow, -⟩ := (hst.status seen).mpr hstatus
      rw [hrow]
      rfl
    have hcommits : Prog.Commits (failEncode jobId errorCode audiobookId format
        ((findRendition audiobookId format none t).map AudiobookRendition.id) newId failAudiobook) t ↔
          format ≠ .mp3PerChapter :=
      failEncode_commits_iff ht hfound (hfresh _ hmem) errorCode failAudiobook
    by_cases hformat : format = .mp3PerChapter
    · -- The placeholder breaks the constraint of the table, and nothing is recorded.
      rw [Prog.commit_of_not_commits fun h => hcommits.mp h hformat] at hlast
      have happart := trans_of (EncodesApart jobId audiobookId format) hst₁ hlast
      constructor
      · intro hrecorded
        refine ⟨fun hopen => ?_, fun _ _ => hformat⟩
        obtain ⟨st, hnot, rfl⟩ :=
          HasStatus.unique hopen ((happart.status _).mp (hrecorded.failed hopen))
        exact absurd (.inr rfl) hnot
      · intro h
        exact ⟨fun hopen => absurd hformat (h.failed hopen).2.1,
          fun hsucceeded => (happart.status _).mpr hsucceeded, happart.ready⟩
    · obtain ⟨u, t', htx⟩ := hcommits.mpr hformat
      rw [Prog.commit_of_ok htx] at hlast
      obtain ⟨htables, hfailed, hrows⟩ := failEncode_leaves ht htx
      have hstay := readyStay_iff_of_failEncode hs₁.renditions ht hst₁ htables hrows hlast
      have hfailed' : HasStatus jobId (· = .failed) s' := (hlast.status _).mpr hfailed
      constructor
      · intro hrecorded
        refine ⟨fun _ => ⟨trivial, hformat, hstay.mp hrecorded.ready⟩, fun hsucceeded => ?_⟩
        obtain ⟨st, rfl, heq⟩ := HasStatus.unique (hrecorded.succeeded hsucceeded) hfailed'
        cases heq
      · intro h
        have hnot : ¬ HasStatus jobId (· = .succeeded) s₁ := fun hsucceeded =>
          hformat (h.succeeded hsucceeded trivial)
        have hopen : JobOpen jobId s₁ := by
          obtain ⟨row, hrow, rfl⟩ := hstatus₁
          refine ⟨row, hrow, ?_⟩
          rintro (hsucceeded | hfailed)
          · exact hnot ⟨row, hrow, hsucceeded⟩
          · exact hseen hfailed
        exact ⟨fun _ => hfailed', fun hsucceeded => absurd hsucceeded hnot,
          hstay.mpr (h.failed hopen).2.2⟩

end recorded

/-! ## Where an Error Was Raised -/

/-- The error of an execution was raised after the accesses `work`, before the accesses `rest`: the
last access of `work` was the first one that failed, or none failed and nothing comes after
them. -/
def RaisedAfter (work rest : List AccessEvent) : Prop :=
  (∃ pre x, work = pre ++ [x] ∧ (∀ y ∈ pre, AccessOk y) ∧ ¬ AccessOk x) ∨
    rest = [] ∧ ∀ y ∈ work, AccessOk y

theorem eq_of_first_failure {pre pre' post post' : List AccessEvent} {x x' : AccessEvent}
    (h : pre ++ x :: post = pre' ++ x' :: post') (hpre : ∀ y ∈ pre, AccessOk y)
    (hx : ¬ AccessOk x) (hpre' : ∀ y ∈ pre', AccessOk y) (hx' : ¬ AccessOk x') :
    pre = pre' ∧ x = x' ∧ post = post' := by
  induction pre generalizing pre' with
  | nil =>
    cases pre' with
    | nil =>
      obtain ⟨rfl, rfl⟩ := List.cons.inj h
      exact ⟨rfl, rfl, rfl⟩
    | cons y pre' =>
      obtain ⟨rfl, -⟩ := List.cons.inj h
      exact absurd (hpre' x List.mem_cons_self) hx
  | cons y pre ih =>
    cases pre' with
    | nil =>
      obtain ⟨rfl, -⟩ := List.cons.inj h
      exact absurd (hpre y List.mem_cons_self) hx'
    | cons y' pre' =>
      obtain ⟨rfl, htail⟩ := List.cons.inj h
      obtain ⟨rfl, hrest⟩ := ih htail (fun z hz => hpre z (List.mem_cons_of_mem _ hz))
        fun z hz => hpre' z (List.mem_cons_of_mem _ hz)
      exact ⟨rfl, hrest⟩

theorem RaisedAfter.split {es₁ es₂ work rest : List AccessEvent} (h : RaisedAfter work rest)
    (hok : ∀ y ∈ es₁, AccessOk y) (heq : es₁ ++ es₂ = work ++ rest) :
    ∃ work₂, work = es₁ ++ work₂ ∧ es₂ = work₂ ++ rest ∧ RaisedAfter work₂ rest := by
  rcases h with ⟨pre, x, rfl, hpre, hx⟩ | ⟨rfl, hwork⟩
  · rw [List.append_assoc, List.singleton_append] at heq
    rcases List.append_eq_append_iff.mp heq with ⟨mid, rfl, rfl⟩ | ⟨mid, rfl, hmid⟩
    · refine ⟨mid ++ [x], by simp, by simp, .inl ⟨mid, x, rfl, fun y hy => ?_, hx⟩⟩
      exact hpre y (List.mem_append_right _ hy)
    · cases mid with
      | nil =>
        obtain rfl : x :: rest = es₂ := by simpa using hmid
        exact ⟨[x], by simp, by simp, .inl ⟨[], x, rfl, by simp, hx⟩⟩
      | cons y mid =>
        obtain ⟨rfl, -⟩ := List.cons.inj hmid
        exact absurd (hok x (by simp)) hx
  · rw [List.append_nil] at heq
    subst heq
    exact ⟨es₂, rfl, by simp, .inr ⟨rfl, fun y hy => hwork y (List.mem_append_right _ hy)⟩⟩

theorem RaisedAfter.rest_eq_nil {α : Type} {p : Service α} {P : Access → (Store → Store) → Prop}
    (hp : p.Straight AccessOk P) {work rest : List AccessEvent} {r : Ending Fault α}
    (h : RaisedAfter work rest) (htrace : p.Trace (work ++ rest) r) : rest = [] := by
  rcases h with ⟨pre, x, rfl, -, hx⟩ | ⟨rfl, -⟩
  · rw [List.append_assoc, List.singleton_append] at htrace
    exact (hp.eq_nil_of_trace htrace hx).1
  · rfl

theorem RaisedAfter.eq_of_straight {α : Type} {p : Service α}
    {P : Access → (Store → Store) → Prop} (hp : p.Straight AccessOk P)
    {es₁ es₂ work rest : List AccessEvent} {r : Ending Fault α} (h : RaisedAfter work rest)
    (htrace : p.Trace es₁ r) (hfailed : ∃ x ∈ es₁, ¬ AccessOk x)
    (heq : work ++ rest = es₁ ++ es₂) : work = es₁ ∧ rest = es₂ := by
  obtain ⟨x, hx, hnot⟩ := hfailed
  obtain ⟨pre, post, rfl⟩ := List.append_of_mem hx
  obtain ⟨rfl, -⟩ := hp.eq_nil_of_trace htrace hnot
  have hpre : ∀ y ∈ pre, AccessOk y := by
    intro y hy
    by_contra hfailed
    obtain ⟨pre₁, pre₂, rfl⟩ := List.append_of_mem hy
    rw [List.append_assoc, List.cons_append] at htrace
    exact absurd (hp.eq_nil_of_trace htrace hfailed).1 (by simp)
  rcases h with ⟨pre', x', rfl, hpre', hx'⟩ | ⟨rfl, hwork⟩
  · rw [List.append_assoc, List.append_assoc] at heq
    obtain ⟨rfl, rfl, rfl⟩ := eq_of_first_failure heq hpre' hx' hpre hnot
    exact ⟨rfl, rfl⟩
  · rw [List.append_nil] at heq
    exact absurd (hwork x (by simp [heq])) hnot

/-! ## Errors of the Processor -/

section quiet

theorem quiet_external : external.Quiet AccessOk :=
  Prog.quiet_read (fun _ h => h.done) _ _

theorem quiet_upsertRendition (audiobookId : Id) (format : DeliveryFormat)
    (chapterId : Option Id) : (upsertRendition audiobookId format chapterId).Quiet AccessOk := by
  refine Prog.quiet_bind (quiet_query _) fun existing => ?_
  split
  · exact quiet_perform _
  · exact Prog.quiet_bind quiet_freshId fun _ => quiet_perform _

theorem quiet_encodeMp3PerChapter (audiobookId : Id) (chapters : List AudiobookChapter) :
    (encodeMp3PerChapter audiobookId chapters).Quiet AccessOk := by
  induction chapters with
  | nil => exact Prog.quiet_pure _
  | cons chapter chapters ih =>
    refine Prog.quiet_bind (quiet_query _) fun existing => ?_
    split
    · exact Prog.quiet_bind quiet_external fun _ =>
        Prog.quiet_bind (quiet_upsertRendition _ _ _) fun _ => ih
    · exact ih

theorem quiet_allFormatsFullyReady (audiobookId : Id) (chapterCount : ℕ)
    (formats : List DeliveryFormat) :
    (allFormatsFullyReady audiobookId chapterCount formats).Quiet AccessOk := by
  induction formats with
  | nil => exact Prog.quiet_pure _
  | cons format formats ih =>
    exact Prog.quiet_bind (quiet_query _) fun _ => Prog.quiet_bind ih fun _ => Prog.quiet_pure _

theorem quiet_maybePublishAudiobook (audiobook : Audiobook) :
    (maybePublishAudiobook audiobook).Quiet AccessOk := by
  rw [maybePublishAudiobook]
  split
  · exact Prog.quiet_pure _
  refine Prog.quiet_bind (Prog.quiet_read (fun _ h => h.done) _ _) fun requested => ?_
  split
  · exact Prog.quiet_pure _
  refine Prog.quiet_bind (quiet_allFormatsFullyReady _ _ _) fun ready => ?_
  split
  · exact Prog.quiet_pure _
  refine Prog.quiet_bind (quiet_query _) fun _ => Prog.quiet_bind (quiet_query _) fun current => ?_
  split
  · exact Prog.quiet_pure _
  · split
    · exact Prog.quiet_pure _
    · exact quiet_perform _

theorem quiet_encodeDeliveryFormat (job : ProcessingJob) (audiobook : Audiobook)
    (format : DeliveryFormat) : (encodeDeliveryFormat job audiobook format).Quiet AccessOk := by
  have hdone : ∀ u : Unit, (perform (.markSucceeded job.id .running) >>= fun _ =>
      maybePublishAudiobook audiobook).Quiet AccessOk := fun _ =>
    Prog.quiet_bind (quiet_perform _) fun _ => quiet_maybePublishAudiobook _
  refine Prog.quiet_bind quiet_external fun _ => ?_
  split
  · exact Prog.quiet_bind (quiet_encodeMp3PerChapter _ _) hdone
  · refine Prog.quiet_bind (Prog.quiet_bind quiet_external fun _ => ?_) hdone
    exact quiet_upsertRendition _ _ _

end quiet

/-- The access marked the job of an attempt as running, and the program learned of it: what comes
after it is in the `try` block. -/
def StartedWork (x : AccessEvent) : Prop :=
  MarkedRunning x ∧ AccessOk x

/-- The access runs the transaction of its label, and does not mark a job as running. -/
def Access.Unstarted (a : Access) (w : Store → Store) : Prop :=
  (∀ jobId seen, a ≠ .markRunning jobId seen) ∧ w = Prog.commit a.tx

theorem Access.Silent.unstarted (a : Access) (w : Store → Store) (h : a.Silent w) :
    a.Unstarted w := by
  refine ⟨?_, h.2⟩
  rintro jobId seen rfl
  exact absurd h.1 (List.cons_ne_nil _ _)

/-- The store after some accesses, where each runs the transaction of its label. -/
abbrev storeAfter (s : Store) (es : List AccessEvent) : Store :=
  lastStore (fun a : Access => Prog.commit a.tx) s es

section errors

variable (others : Store → Store → Prop) (jobId audiobookId : Id) (format : DeliveryFormat)
  (d : Delivery)

/-- An error of the program either comes before the job is marked as running, and nothing comes
after it, or it comes from the `try` block, and the failure handler comes after it. -/
def EncodeErrors (p : Service Unit) : Prop :=
  ∀ s work rest e s', p.Runs others s (work ++ rest) (.raised e) s' → RaisedAfter work rest →
    (rest = [] ∧ (∀ y ∈ work, ¬ StartedWork y) ∧
        EncodesApart jobId audiobookId format (storeAfter s work) s') ∨
      (∃ y ∈ work, StartedWork y) ∧ ∃ (job : ProcessingJob) (audiobook : Audiobook) (err : Fault)
        (s₁ : Store), job.id = jobId ∧ audiobook.id = audiobookId ∧
        EncodesApart jobId audiobookId format (storeAfter s work) s₁ ∧
        (handleEncodeFailure job audiobook format err d >>= fun _ =>
          (throw err : Service Unit)).Runs others s₁ rest (.raised e) s'

variable {others jobId audiobookId format d} {α : Type}
  (hothers : ∀ s s', others s s' → EncodesApart jobId audiobookId format s s')

theorem not_startedWork_of_always {p : Service α} (hp : p.Always Access.Unstarted)
    {es : List AccessEvent} {r : Ending Fault α} (h : p.Trace es r) :
    ∀ y ∈ es, ¬ StartedWork y := by
  rintro y hy ⟨⟨id, seen, hlabel⟩, -⟩
  obtain ⟨w, hw, -⟩ := hp.of_trace h y hy
  exact hw id seen hlabel

include hothers

theorem apart_of_runs {p : Service α} (hp : p.Straight AccessOk fun a w => w = Prog.commit a.tx)
    {s s' : Store} {es : List AccessEvent} {r : Ending Fault α} (h : p.Runs others s es r s') :
    EncodesApart jobId audiobookId format (storeAfter s es) s' :=
  hothers _ _ (h.others_lastStore hp.always)

theorem encodeErrors_of_unstarted {p : Service Unit} (hp : p.Straight AccessOk Access.Unstarted) :
    EncodeErrors others jobId audiobookId format d p := by
  intro s work rest e s' hrun hraised
  obtain rfl := hraised.rest_eq_nil hp hrun.trace
  rw [List.append_nil] at hrun
  exact .inl ⟨rfl, not_startedWork_of_always hp.always hrun.trace,
    apart_of_runs hothers (hp.mono fun _ _ h => h.2) hrun⟩

variable (hrefl : ∀ s, others s s)

include hrefl

theorem encodeErrors_bind {p : Service α} {f : α → Service Unit}
    (hp : p.Straight AccessOk Access.Unstarted)
    (hf : ∀ s es a s', p.Runs others s es (.returned a) s' →
      EncodeErrors others jobId audiobookId format d (f a)) :
    EncodeErrors others jobId audiobookId format d (p >>= f) := by
  intro s work rest e s' hrun hraised
  rcases Prog.runs_bind hrefl hrun with ⟨a, es₁, es₂, s₁, heq, h₁, h₂⟩ | ⟨e', heq, h₁⟩ | ⟨heq, -⟩
  · obtain ⟨work₂, rfl, rfl, hraised₂⟩ :=
      hraised.split (hp.ok_of_returned h₁.trace) heq.symm
    have hnone := not_startedWork_of_always hp.always h₁.trace
    have hapart := apart_of_runs hothers (hp.mono fun _ _ h => h.2) h₁
    rcases hf _ _ _ _ h₁ _ _ _ _ _ h₂ hraised₂ with
      ⟨rfl, hnone₂, hlast⟩ | ⟨⟨y, hy, hstarted⟩, job, audiobook, err, s₂, hjob, haudiobook, hs₂, hh⟩
    · exact .inl ⟨rfl, List.forall_mem_append.mpr ⟨hnone, hnone₂⟩,
        related_lastStore_append hapart hlast⟩
    · exact .inr ⟨⟨y, List.mem_append_right _ hy, hstarted⟩, job, audiobook, err, s₂, hjob,
        haudiobook, related_lastStore_append hapart hs₂, hh⟩
  · obtain rfl := hraised.rest_eq_nil hp h₁.trace
    cases heq
    rw [List.append_nil] at h₁
    exact .inl ⟨rfl, not_startedWork_of_always hp.always h₁.trace,
      apart_of_runs hothers (hp.mono fun _ _ h => h.2) h₁⟩
  · cases heq

theorem encodeErrors_try {job : ProcessingJob} {audiobook : Audiobook} (hjob : job.id = jobId)
    (haudiobook : audiobook.id = audiobookId) (seen : JobStatus) :
    EncodeErrors others jobId audiobookId format d (perform (.markRunning jobId seen) >>= fun _ =>
      tryCatchThe Fault (encodeDeliveryFormat job audiobook format) fun err =>
        handleEncodeFailure job audiobook format err d >>= fun _ => throw err) := by
  intro s work rest e s' hrun hraised
  have hmark := uncaught_perform (.markRunning jobId seen)
  have hbody := uncaught_encodeDeliveryFormat job audiobook format
  rcases Prog.runs_bind hrefl hrun with ⟨u, es₁, es₂, s₁, heq, h₁, h₂⟩ | ⟨e', -, h₁⟩ | ⟨heq, -⟩
  · have hok₁ := hmark.ok_of_returned h₁.trace
    obtain ⟨work₂, rfl, rfl, hraised₂⟩ := hraised.split hok₁ heq.symm
    have hapart₁ := apart_of_runs hothers hmark h₁
    obtain ⟨s₀, s₂, rfl, -⟩ := Prog.runs_atomically_returned h₁
    have hstarted : ∃ y ∈ [(⟨.markRunning jobId seen, s₀, .done⟩ : AccessEvent)] ++ work₂,
        StartedWork y :=
      ⟨_, List.mem_append_left _ (List.mem_singleton_self _), ⟨jobId, seen, rfl⟩,
        hok₁ _ (List.mem_singleton_self _)⟩
    rcases Prog.runs_tryCatch hrefl h₂ with ⟨err, es₃, es₄, s₃, heq₂, h₃, h₄⟩ | ⟨a, heq, -⟩ | ⟨heq, -⟩
    · -- The body raised at its last access, and that is the one at which the error was raised.
      obtain ⟨x, hx, hnot⟩ : ∃ x ∈ es₃, ¬ AccessOk x := by
        by_contra hall
        push Not at hall
        exact quiet_encodeDeliveryFormat job audiobook format _ _ h₃.trace hall err rfl
      obtain ⟨rfl, rfl⟩ := hraised₂.eq_of_straight hbody h₃.trace ⟨x, hx, hnot⟩ heq₂
      exact .inr ⟨hstarted, job, audiobook, err, s₃, hjob, haudiobook,
        related_lastStore_append hapart₁ (apart_of_runs hothers hbody h₃), h₄⟩
    · cases heq
    · cases heq
  · obtain rfl := hraised.rest_eq_nil hmark h₁.trace
    rw [List.append_nil] at h₁
    refine .inl ⟨rfl, fun y hy => ?_, apart_of_runs hothers hmark h₁⟩
    rintro ⟨-, hok⟩
    rcases Prog.runs_atomically h₁ with ⟨rfl, -⟩ | ⟨x, rfl, -⟩
    · cases hy
    · obtain rfl := List.mem_singleton.mp hy
      exact quiet_perform _ _ _ h₁.trace (by simpa using hok) e' rfl
  · cases heq

theorem encodeErrors_processEncodeDeliveryFormatJob (hentity : d.envelope.entityId = some jobId) :
    EncodeErrors others jobId audiobookId format d
      (processEncodeDeliveryFormatJob audiobookId format d) := by
  have hsilent {α : Type} {p : Service α} (hp : Silent p) :
      p.Straight AccessOk Access.Unstarted := hp.mono Access.Silent.unstarted
  have hquery {β : Type} (f : Store → β) := hsilent (silent_query f)
  rw [processEncodeDeliveryFormatJob, hentity]
  refine encodeErrors_bind hothers hrefl (hquery _) fun s _ found _ hfound => ?_
  obtain ⟨s₀, -, -, -, rfl⟩ := Prog.runs_read_returned hfound
  cases hjob : findJob jobId s₀ with
  | none => exact encodeErrors_of_unstarted hothers trivial
  | some job =>
  have hid := List.find?_some hjob
  obtain rfl : job.id = jobId := of_decide_eq_true hid
  dsimp only
  split
  · exact encodeErrors_of_unstarted hothers trivial
  refine encodeErrors_bind hothers hrefl (hquery _) fun s _ found _ hfound => ?_
  obtain ⟨s₁, -, -, -, rfl⟩ := Prog.runs_read_returned hfound
  cases haudiobook : findAudiobook audiobookId s₁ with
  | none => exact encodeErrors_of_unstarted hothers trivial
  | some audiobook =>
  have hid := List.find?_some haudiobook
  obtain rfl : audiobook.id = audiobookId := of_decide_eq_true hid
  refine encodeErrors_bind hothers hrefl (hquery _) fun _ _ ready _ _ => ?_
  split
  · refine encodeErrors_of_unstarted hothers (Prog.straight_bind ?_ fun _ =>
      Prog.straight_bind (hsilent (silent_maybePublishAudiobook _)) fun _ => trivial)
    exact Prog.straight_atomically ⟨by simp, rfl⟩ fun _ hcommits => ⟨rfl, hcommits⟩
  · exact encodeErrors_try hothers hrefl rfl rfl _

/-- The processor of encodes raises an error on the last attempt, and its accesses after the error
are acknowledged. Then the failure is recorded, and finished work stays, exactly where the error
was recordable in the store in which it was raised. -/
theorem failureRecorded_iff (hfinal : d.isFinalAttempt) (hentity : d.envelope.entityId = some jobId)
    {s s' : Store} {work rest : List AccessEvent} {e : Fault}
    (hrun : (processEncodeDeliveryFormatJob audiobookId format d).Runs others s (work ++ rest)
      (.raised e) s')
    (hraised : RaisedAfter work rest) (hdone : ∀ x ∈ rest, x.fate = .done)
    (hfresh : ∀ x ∈ rest, FreshPlaceholder x) (htables : EncodeTables (storeAfter s work)) :
    FailureRecorded jobId (storeAfter s work) s' ↔
      Recordable jobId audiobookId format (∃ x ∈ work, StartedWork x) (storeAfter s work) := by
  rcases encodeErrors_processEncodeDeliveryFormatJob hothers hrefl hentity _ _ _ _ _ hrun hraised with
    ⟨rfl, hnone, happart⟩ | ⟨hstarted, job, audiobook, err, s₁, hjob, haudiobook, happart, hhandler⟩
  · -- Nothing happens after the error.
    have hnot : ¬ ∃ x ∈ work, StartedWork x := fun ⟨x, hx, h⟩ => hnone x hx h
    constructor
    · intro hrecorded
      refine ⟨fun hopen => ?_, fun _ hstarted => absurd hstarted hnot⟩
      obtain ⟨st, hst, rfl⟩ :=
        HasStatus.unique hopen ((happart.status _).mp (hrecorded.failed hopen))
      exact absurd (.inr rfl) hst
    · intro h
      exact ⟨fun hopen => absurd (h.failed hopen).1 hnot,
        fun hsucceeded => (happart.status _).mpr hsucceeded, happart.ready⟩
  · rw [failureRecorded_iff_of_handler hothers hfinal hjob haudiobook hhandler hdone hfresh htables
      happart]
    simp only [hstarted]

end errors

/-! ## A Failed Encode of the Small Book -/

instance (s : Store) : Decidable (EncodeTables s) :=
  decidable_of_iff (Db.processingJob.Holds s ∧ Db.audiobookRendition.Holds s ∧ Db.audiobook.Holds s)
    ⟨fun ⟨h₁, h₂, h₃⟩ => ⟨h₁, h₂, h₃⟩, fun ⟨h₁, h₂, h₃⟩ => ⟨h₁, h₂, h₃⟩⟩

instance (x : AccessEvent) : Decidable (StartedWork x) :=
  decidable_of_iff
    ((match x.label with | .markRunning _ _ => true | _ => false) = true ∧ AccessOk x) (by
      rw [StartedWork, MarkedRunning]
      cases x.label <;> simp)

instance (x : AccessEvent) : Decidable (FreshPlaceholder x) := by
  unfold FreshPlaceholder
  split <;> infer_instance

/-- The small book, with its audiobook mastered and the job of its one format created. -/
def masteredBook (format : DeliveryFormat) : Store :=
  let run (p : Service Unit) (s : Store) : Store := (p.evaluate (fun _ => none) s).2
  let request : StartAssembly := { scope := .audiobook, deliveryFormats := [format] }
  run (deliver polynomialDigest ⟨audiobookEnvelope 102 1 [format], 0, 78⟩)
    (run (deliver polynomialDigest ⟨chapterEnvelope 100 3, 0, 77⟩)
      (run (startAssembly polynomialDigest 1 request) narratedBook))

/-- The last delivery of the encode job, alone: the encoder fails. -/
def failedEncode (format : DeliveryFormat) : List AccessEvent × Ending Fault Unit × Store :=
  (processEncodeDeliveryFormatJob 103 format ⟨encodeEnvelope 104 103 format, 2, 79⟩).execute
    (masteredBook format) (List.replicate 4 .done ++ .refused .uncoded :: List.replicate 5 .done)

theorem runs_failedEncode (format : DeliveryFormat) {e : Fault}
    (hending : (failedEncode format).2.1 = .raised e) :
    (processEncodeDeliveryFormatJob 103 format ⟨encodeEnvelope 104 103 format, 2, 79⟩).Runs Eq
      (masteredBook format) ((failedEncode format).1.take 5 ++ (failedEncode format).1.drop 5)
      (.raised e) (failedEncode format).2.2 := by
  rw [List.take_append_drop, ← hending]
  exact Prog.runs_execute (fun _ => rfl) _ _ _

theorem raisedAfter_failedEncode (format : DeliveryFormat)
    (hlength : (((failedEncode format).1.take 5).drop 4).length = 1)
    (hpre : ∀ y ∈ ((failedEncode format).1.take 5).take 4, AccessOk y)
    (hfailed : ∀ y ∈ ((failedEncode format).1.take 5).drop 4, ¬ AccessOk y) :
    RaisedAfter ((failedEncode format).1.take 5) ((failedEncode format).1.drop 5) := by
  obtain ⟨x, hx⟩ := List.length_eq_one_iff.mp hlength
  refine .inl ⟨((failedEncode format).1.take 5).take 4, x, ?_, hpre, hfailed x (by simp [hx])⟩
  rw [← hx, List.take_append_drop]

theorem encodesApart_of_eq (jobId audiobookId : Id) (format : DeliveryFormat) (s s' : Store)
    (h : s = s') : EncodesApart jobId audiobookId format s s' :=
  h ▸ refl_of (EncodesApart jobId audiobookId format) s

/-- A single file fails: that is recorded. -/
theorem failureRecorded_iff_singleFile :
    FailureRecorded 104 (storeAfter (masteredBook .m4b) ((failedEncode .m4b).1.take 5))
      (failedEncode .m4b).2.2 := by
  have hending : (failedEncode .m4b).2.1 = .raised .uncoded := by decide +kernel
  refine (failureRecorded_iff (encodesApart_of_eq 104 103 .m4b) (fun _ => rfl) (by decide) rfl
    (runs_failedEncode .m4b hending) ?_
    (by decide +kernel) (by decide +kernel) (by decide +kernel)).mpr ?_
  · exact raisedAfter_failedEncode .m4b (by decide +kernel) (by decide +kernel) (by decide +kernel)
  · constructor
    · intro _
      exact ⟨by decide +kernel, by decide, by decide +kernel⟩
    · intro hsucceeded
      exact absurd hsucceeded (by decide +kernel)

/-- It is not so that every error of the last attempt is recorded: for the files of the chapters,
the placeholder breaks the constraint of the renditions, and the job stays `RUNNING`. -/
theorem not_forall_failureRecorded :
    ¬ ∀ (others : Store → Store → Prop) (jobId audiobookId : Id) (format : DeliveryFormat)
        (d : Delivery) (s s' : Store) (work rest : List AccessEvent) (e : Fault),
        (∀ s s', others s s' → EncodesApart jobId audiobookId format s s') →
        (∀ s, others s s) → d.isFinalAttempt → d.envelope.entityId = some jobId →
        (processEncodeDeliveryFormatJob audiobookId format d).Runs others s (work ++ rest)
          (.raised e) s' →
        RaisedAfter work rest → (∀ x ∈ rest, x.fate = .done) → (∀ x ∈ rest, FreshPlaceholder x) →
        EncodeTables (storeAfter s work) → FailureRecorded jobId (storeAfter s work) s' := by
  intro hclaim
  have hending : (failedEncode .mp3PerChapter).2.1 = .raised (.violation .check) := by
    decide +kernel
  have hraised := raisedAfter_failedEncode .mp3PerChapter (by decide +kernel) (by decide +kernel)
    (by decide +kernel)
  have hrecorded := hclaim Eq 104 103 .mp3PerChapter ⟨encodeEnvelope 104 103 .mp3PerChapter, 2, 79⟩
    (masteredBook .mp3PerChapter) _ _ _ _ (encodesApart_of_eq 104 103 .mp3PerChapter) (fun _ => rfl)
    (by decide) rfl (runs_failedEncode .mp3PerChapter hending) hraised (by decide +kernel)
    (by decide +kernel) (by decide +kernel)
  have hnot : ¬ HasStatus 104 (· = .failed) (failedEncode .mp3PerChapter).2.2 := by decide +kernel
  exact hnot (hrecorded.failed (by decide +kernel))

end AudioBook
