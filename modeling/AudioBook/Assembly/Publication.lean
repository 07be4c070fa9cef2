import AudioBook.Assembly.Effects
import AudioBook.Assembly.Steps
import AudioBook.Schema.Constraints

/-!
# The Publication Gate

Whether an audiobook that becomes `READY` is ready in every format that was asked for. The gate
takes the requested formats from the encode jobs that exist when it asks, and the loop that
creates these jobs may still be running, or have crashed. It then checks the renditions one by
one, and the failure of a late attempt may take a `READY` rendition back.

Main results:

- `published_ready`: in every run whose accesses are well timed, an audiobook that becomes
  `READY` has a `READY` rendition in every format of its request.
-/

namespace AudioBook

open Relational Concurrent

/-! ## Requested and Ready Formats -/

/-- The `delivery_formats` of the `assemble_audiobook` message that an audiobook was assembled
for. -/
def originatingFormats (a : Audiobook) (s : Store) : List DeliveryFormat :=
  match (a.jobId.bind fun i => findJob i s).bind ProcessingJob.dispatchEnvelope with
  | some ⟨_, _, .assembleAudiobook _ deliveryFormats⟩ => deliveryFormats
  | _ => []

/-- An audiobook has a `READY` rendition in a format. -/
def HasReady (audiobookId : Id) (format : DeliveryFormat) (s : Store) : Prop :=
  ∃ r ∈ s.audiobookRenditions,
    r.audiobookId = audiobookId ∧ r.format = format ∧ r.status = .ready

instance (audiobookId : Id) (format : DeliveryFormat) (s : Store) :
    Decidable (HasReady audiobookId format s) :=
  inferInstanceAs (Decidable (∃ r ∈ s.audiobookRenditions, _))

variable {s : Store} {audiobookId : Id} {format : DeliveryFormat}

theorem hasReady_of_isFormatFullyReady {chapterCount : ℕ} (hcount : 0 < chapterCount)
    (h : isFormatFullyReady audiobookId format chapterCount s = true) :
    HasReady audiobookId format s := by
  unfold isFormatFullyReady at h
  split at h
  · next hformat =>
    subst hformat
    have hlength : (readyMp3Renditions audiobookId s).length = chapterCount :=
      of_decide_eq_true (Bool.and_eq_true_iff.mp h).1
    obtain ⟨r, hr⟩ := List.exists_mem_of_length_pos (hlength ▸ hcount)
    obtain ⟨hmem, hr⟩ := List.mem_filter.mp hr
    obtain ⟨hid, hformat, hready, -⟩ := of_decide_eq_true hr
    exact ⟨r, hmem, hid, hformat, hready⟩
  · cases hfound : readyRendition audiobookId format s with
    | none => simp [hfound] at h
    | some r =>
      have hr := List.find?_some hfound
      obtain ⟨hid, hformat, hready, -⟩ := of_decide_eq_true hr
      exact ⟨r, List.mem_of_find?_eq_some hfound, hid, hformat, hready⟩

/-- The gate meets all encode jobs of the request, and a failure is not recorded on a rendition
that is `READY`. -/
def Access.WellTimed : Access → Store → Prop
  | requestedFormats audiobookId, s => ∀ a ∈ s.audiobooks, a.id = audiobookId →
      ∀ format ∈ originatingFormats a s, format ∈ AudioBook.requestedFormats audiobookId s
  | failEncode _ _ _ _ _ existing _ _, s =>
      ∀ r ∈ s.audiobookRenditions, existing = some r.id → r.status ≠ .ready
  | _, _ => True

instance (a : Access) (s : Store) : Decidable (a.WellTimed s) :=
  match a with
  | .requestedFormats audiobookId => inferInstanceAs (Decidable (∀ a ∈ s.audiobooks,
      a.id = audiobookId → ∀ format ∈ originatingFormats a s, format ∈ requestedFormats audiobookId s))
  | .failEncode _ _ _ _ _ existing _ _ => inferInstanceAs (Decidable (∀ r ∈ s.audiobookRenditions,
      existing = some r.id → r.status ≠ .ready))
  | .query | .readCancellationFlag _ | .external | .freshId | .enqueue _ | .markQueued _ | .removeQueuedJob _
  | .setCancellationFlag _ | .createJobs _ | .cancelJobs _ | .halt _ _ | .markRunning _ _
  | .markSucceeded _ _ | .markFailed _ _ _ | .persistChapterAudio _ _ | .persistAudiobook _ _
  | .updateRendition _ _ | .createRendition _ | .publish _ _ | .insertChunks _
  | .createTtsJobs _ _ | .insertAudioChunk _ => isTrue trivial

/-! ## What Stays -/

/-- A later version of a rendition: it is for the same format, and stays `READY`. -/
def AudiobookRendition.Stays (r r' : AudiobookRendition) : Prop :=
  r'.id = r.id ∧ r'.audiobookId = r.audiobookId ∧ r'.format = r.format ∧
    (r.status = .ready → r'.status = .ready)

instance : IsPreorder AudiobookRendition AudiobookRendition.Stays where
  refl _ := ⟨rfl, rfl, rfl, id⟩
  trans _ _ _ h₁ h₂ :=
    ⟨h₂.1.trans h₁.1, h₂.2.1.trans h₁.2.1, h₂.2.2.1.trans h₁.2.2.1, h₂.2.2.2 ∘ h₁.2.2.2⟩

/-- What well-timed accesses never change back. -/
structure GateStep (s s' : Store) : Prop where
  requests : JobRequests s s'
  builds : Builds s s'
  renditions : Persist AudiobookRendition.Stays s.audiobookRenditions s'.audiobookRenditions

instance : IsPreorder Store GateStep where
  refl s := ⟨refl_of JobRequests s, refl_of Builds s,
    refl_of (Persist AudiobookRendition.Stays) s.audiobookRenditions⟩
  trans _ _ _ h₁ h₂ := ⟨trans_of JobRequests h₁.requests h₂.requests,
    trans_of Builds h₁.builds h₂.builds,
    trans_of (Persist AudiobookRendition.Stays) h₁.renditions h₂.renditions⟩

variable {s' : Store}

theorem GateStep.hasReady (h : GateStep s s') (hready : HasReady audiobookId format s) :
    HasReady audiobookId format s' := by
  obtain ⟨r, hr, hid, hformat, hstatus⟩ := hready
  obtain ⟨r', hr', -, hid', hformat', hstatus'⟩ := h.renditions r hr
  exact ⟨r', hr', hid'.trans hid, hformat'.trans hformat, hstatus' hstatus⟩

/-- The job that an audiobook was assembled by is there. -/
def Audiobook.Requested (a : Audiobook) (s : Store) : Prop :=
  (a.jobId.bind fun i => findJob i s).isSome

variable {a : Audiobook}

theorem JobRequests.requested (h : JobRequests s s') (ha : a.Requested s) : a.Requested s' := by
  obtain ⟨job, hjob⟩ := Option.isSome_iff_exists.mp ha
  obtain ⟨i, hi, hfind⟩ := Option.bind_eq_some_iff.mp hjob
  obtain ⟨job', hjob', -⟩ := h.findJob hfind
  rw [Audiobook.Requested, hi]
  simp [hjob']

theorem JobRequests.originatingFormats_eq (h : JobRequests s s') (ha : a.Requested s) :
    originatingFormats a s' = originatingFormats a s := by
  obtain ⟨job, hjob⟩ := Option.isSome_iff_exists.mp ha
  obtain ⟨i, hi, hfind⟩ := Option.bind_eq_some_iff.mp hjob
  obtain ⟨job', hjob', hsame⟩ := h.findJob hfind
  have henvelope : job'.dispatchEnvelope = job.dispatchEnvelope := by rw [hsame]
  simp [originatingFormats, hi, hfind, hjob', henvelope]

theorem Audiobook.SameBuild.originatingFormats_eq {a' : Audiobook} (h : a.SameBuild a') (s : Store) :
    originatingFormats a' s = originatingFormats a s := by
  rw [h]
  rfl

/-! ## The Invariant -/

/-- The formats of an audiobook's request are ready. -/
def RequestReady (a : Audiobook) (s : Store) : Prop :=
  ∀ format ∈ originatingFormats a s, HasReady a.id format s

/-- What holds in every reachable store. -/
structure GateInvariant (s : Store) : Prop where
  audiobookIds : (s.audiobooks.map Audiobook.id).Nodup
  renditionIds : (s.audiobookRenditions.map AudiobookRendition.id).Nodup
  requested : ∀ a ∈ s.audiobooks, a.Requested s
  chapters : ∀ a ∈ s.audiobooks, 0 < a.chapterCount
  ready : ∀ a ∈ s.audiobooks, a.status = .ready → RequestReady a s

/-- Where a row of `audiobook` comes from in a step: from the same build, which was `READY` or
had its request ready if it is `READY` now, or from an insertion. -/
def Audiobook.Origin (s : Store) (a' : Audiobook) : Prop :=
  (∃ a ∈ s.audiobooks, a.SameBuild a' ∧
      (a'.status = .ready → a.status = .ready ∨ RequestReady a s)) ∨
    a'.Requested s ∧ 0 < a'.chapterCount ∧ a'.status ≠ .ready

theorem GateInvariant.step (hs : GateInvariant s) (h : GateStep s s')
    (haudiobooks : (s'.audiobooks.map Audiobook.id).Nodup)
    (hrenditions : (s'.audiobookRenditions.map AudiobookRendition.id).Nodup)
    (horigin : ∀ a' ∈ s'.audiobooks, a'.Origin s) : GateInvariant s' where
  audiobookIds := haudiobooks
  renditionIds := hrenditions
  requested a' ha' := by
    rcases horigin a' ha' with ⟨a, ha, hsame, -⟩ | ⟨hrequested, -, -⟩
    · have := h.requests.requested (hs.requested a ha)
      rwa [hsame]
    · exact h.requests.requested hrequested
  chapters a' ha' := by
    rcases horigin a' ha' with ⟨a, ha, hsame, -⟩ | ⟨-, hchapters, -⟩
    · rw [hsame]
      exact hs.chapters a ha
    · exact hchapters
  ready a' ha' hready := by
    rcases horigin a' ha' with ⟨a, ha, hsame, hwas⟩ | ⟨-, -, hnot⟩
    · have hrequest : RequestReady a s := (hwas hready).elim (hs.ready a ha) id
      intro format hformat
      rw [hsame.originatingFormats_eq, h.requests.originatingFormats_eq (hs.requested a ha)]
        at hformat
      have hid : a'.id = a.id := by rw [hsame]
      rw [hid]
      exact h.hasReady (hrequest format hformat)
    · exact absurd hready hnot

/-- Well-timed accesses, and steps that keep the invariant. -/
def gateContract : Contract Store Access :=
  .ofInvariant Access.WellTimed GateInvariant GateStep

/-! ## Routine Accesses -/

theorem origin_of_mem (ha : a ∈ s.audiobooks) : a.Origin s :=
  .inl ⟨a, ha, rfl, .inl⟩

theorem origin_of_mem_withStatus {status : AudiobookStatus} (hstatus : status ≠ .ready)
    {a' : Audiobook} (ha' : a' ∈ withStatus audiobookId status s.audiobooks) : a'.Origin s := by
  rcases mem_updateWhere.mp ha' with ⟨a, ha, -, rfl⟩ | ⟨ha, -⟩
  · exact .inl ⟨a, ha, rfl, fun h => absurd h hstatus⟩
  · exact origin_of_mem ha

theorem stays_withFailedRendition {newId : Id} {existing : Option Id}
    {rows : List AudiobookRendition} (h : ∀ r ∈ rows, existing = some r.id → r.status ≠ .ready) :
    Persist AudiobookRendition.Stays rows
      (withFailedRendition audiobookId format existing newId rows) := by
  cases existing with
  | none => exact Persist.append _ _ _
  | some renditionId =>
    refine Persist.updateWhere fun r hr hid => ⟨rfl, rfl, rfl, fun hready => ?_⟩
    have hid : r.id = renditionId := of_decide_eq_true hid
    exact absurd hready (h r hr (congrArg some hid.symm))

theorem gate_routine (a : Access) (w : Store → Store) (h : a.Routine w) :
    gateContract.Allows a w := by
  obtain ⟨hrow, hchecked, rfl | rfl⟩ := h
  · exact Contract.allows_id _ a
  refine Contract.allows_commit _ fun s u s' hadm htx hs => ?_
  have hrequests : JobRequests s s' := tx_requests a s u s' htx
  have hbuilds : Builds s s' := tx_builds a s u s' htx
  by_cases hproduct : a.WritesProduct
  · cases a with
    | persistAudiobook jobId audiobook =>
      obtain ⟨hassembling, hjobId, hchapters⟩ := hchecked
      obtain ⟨hjob, hacc, jobs, rfl⟩ := persistAudiobook_eq_ok htx
      have hstep : GateStep s _ := ⟨hrequests, hbuilds, refl_of (Persist _) _⟩
      refine ⟨hs.step hstep (Db.audiobook_accepts_iff.mp hacc).id hs.renditionIds ?_, hstep⟩
      intro a' ha'
      rcases List.mem_append.mp ha' with ha' | ha'
      · rcases mem_updateWhere.mp ha' with ⟨a, ha, -, rfl⟩ | ⟨ha, -⟩
        · exact .inl ⟨a, ha, rfl, .inl⟩
        · exact origin_of_mem ha
      · obtain rfl := List.mem_singleton.mp ha'
        refine .inr ⟨?_, hchapters, by simp [hassembling]⟩
        rwa [Audiobook.Requested, hjobId]
    | createRendition rendition =>
      obtain ⟨hacc, rfl⟩ := (Table.insert_eq_ok_iff (ε := Fault) _).mp htx
      have hstep : GateStep s _ := ⟨hrequests, hbuilds, Persist.append _ _ _⟩
      exact ⟨hs.step hstep hs.audiobookIds (Db.audiobookRendition_accepts_iff.mp hacc).id
        fun a ha => origin_of_mem ha, hstep⟩
    | failEncode jobId seen errorCode audiobookId format existing newId failAudiobook =>
      obtain ⟨hacc, jobs, rfl⟩ := failEncode_eq_ok htx
      have hstep : GateStep s _ := ⟨hrequests, hbuilds, stays_withFailedRendition hadm⟩
      refine ⟨hs.step hstep ?_ (Db.audiobookRendition_accepts_iff.mp hacc).id ?_, hstep⟩
      · cases failAudiobook with
        | true => exact nodup_map_updateWhere hs.audiobookIds fun _ => rfl
        | false => exact hs.audiobookIds
      · cases failAudiobook with
        | true => exact fun a' ha' => origin_of_mem_withStatus (by decide) ha'
        | false => exact fun a ha => origin_of_mem ha
    | _ => first | exact absurd trivial hrow | exact absurd hproduct not_false
  · obtain ⟨haudiobooks, hrenditions, -⟩ := tx_products hproduct s u s' htx
    have hstep : GateStep s s' := ⟨hrequests, hbuilds, by
      rw [hrenditions]
      exact refl_of (Persist AudiobookRendition.Stays) _⟩
    refine ⟨hs.step hstep ?_ ?_ ?_, hstep⟩
    · rw [haudiobooks]
      exact hs.audiobookIds
    · rw [hrenditions]
      exact hs.renditionIds
    · rw [haudiobooks]
      exact fun a ha => origin_of_mem ha

/-! ## Storing a Rendition -/

def KnownRendition (renditionId audiobookId : Id) (format : DeliveryFormat) (s : Store) : Prop :=
  ∃ r ∈ s.audiobookRenditions,
    r.id = renditionId ∧ r.audiobookId = audiobookId ∧ r.format = format

theorem evolves_updateRendition {renditionId : Id} {rendition : AudiobookRendition}
    (hready : rendition.status = .ready) {u : Unit}
    (htx : updateRendition renditionId rendition s = .ok (u, s'))
    (hknown : KnownRendition renditionId rendition.audiobookId rendition.format s) :
    gateContract.evolves s s' := by
  intro hs
  have hrequests : JobRequests s s' := tx_requests (.updateRendition renditionId rendition) s u s' htx
  have hbuilds : Builds s s' := tx_builds (.updateRendition renditionId rendition) s u s' htx
  obtain ⟨hacc, rfl⟩ := (Table.update_eq_ok_iff (ε := Fault) _).mp htx
  obtain ⟨r₀, hr₀, hid₀, haudiobook₀, hformat₀⟩ := hknown
  have hstep : GateStep s _ := ⟨hrequests, hbuilds, Persist.updateWhere fun r hr hid => by
    -- Ids are unique, so the row that is overwritten is the one that was looked up.
    have hid : r.id = renditionId := of_decide_eq_true hid
    obtain rfl : r = r₀ := List.inj_on_of_nodup_map hs.renditionIds hr hr₀ (hid.trans hid₀.symm)
    exact ⟨rfl, haudiobook₀.symm, hformat₀.symm, fun _ => hready⟩⟩
  exact ⟨hs.step hstep hs.audiobookIds (Db.audiobookRendition_accepts_iff.mp hacc).id
    fun a ha => origin_of_mem ha, hstep⟩

theorem stable_knownRendition (renditionId audiobookId : Id) (format : DeliveryFormat) :
    gateContract.Stable fun s =>
      GateInvariant s ∧ KnownRendition renditionId audiobookId format s := by
  refine Contract.stable_of_mono fun s s' _ hstep hknown => ?_
  obtain ⟨r, hr, hid, haudiobook, hformat⟩ := hknown
  obtain ⟨r', hr', hid', haudiobook', hformat', -⟩ := hstep.renditions r hr
  exact ⟨r', hr', hid'.trans hid, haudiobook'.trans haudiobook, hformat'.trans hformat⟩

theorem safe_upsertRendition (audiobookId : Id) (format : DeliveryFormat) (chapterId : Option Id)
    (s : Store) (hs : GateInvariant s) :
    gateContract.Safe (upsertRendition audiobookId format chapterId) s := by
  refine Contract.safe_bind_of_wp (Contract.wp_read (fun _ _ _ => trivial) fun s₁ hev _ => ?_)
  have hs₁ : GateInvariant s₁ := (hev hs).1
  split
  · next existing hfound =>
    have hr := List.find?_some hfound
    obtain ⟨haudiobook, hformat, -⟩ := of_decide_eq_true hr
    have hknown : KnownRendition existing.id audiobookId format s₁ :=
      ⟨existing, List.mem_of_find?_eq_some hfound, rfl, haudiobook, hformat⟩
    refine Contract.wp_atomically (fun _ _ _ => trivial) fun s₂ _ s₃ hev₂ _ htx => ⟨?_, trivial⟩
    have hs₂ := stable_knownRendition existing.id audiobookId format s₁ s₂ hev₂ ⟨hs₁, hknown⟩
    exact evolves_updateRendition rfl htx hs₂.2
  · have hP : ∀ (a : Access) w, a.Plain w → gateContract.Allows a w := fun a w h => gate_routine a w h.2
    exact Contract.safe_of_always (Prog.always_bind (always_freshId hP) fun _ =>
      always_perform hP not_false not_false trivial)

/-! ## Publishing -/

/-- An audiobook that was read is still there, and the formats of its request satisfy `P`. -/
def KnownFormats (audiobook : Audiobook) (P : DeliveryFormat → Store → Prop) (s : Store) : Prop :=
  ∃ a ∈ s.audiobooks, audiobook.SameBuild a ∧ ∀ format ∈ originatingFormats a s, P format s

theorem stable_knownFormats (audiobook : Audiobook) {P : DeliveryFormat → Store → Prop}
    (hP : ∀ s s' format, GateStep s s' → P format s → P format s') :
    gateContract.Stable fun s => GateInvariant s ∧ KnownFormats audiobook P s := by
  refine Contract.stable_of_mono fun s s' hs hstep hknown => ?_
  obtain ⟨a, ha, hsame, hformats⟩ := hknown
  obtain ⟨a', ha', hsame'⟩ := hstep.builds a ha
  refine ⟨a', ha', trans_of Audiobook.SameBuild hsame hsame', fun format hformat => ?_⟩
  rw [hsame'.originatingFormats_eq, hstep.requests.originatingFormats_eq (hs.requested a ha)]
    at hformat
  exact hP s s' format hstep (hformats format hformat)

theorem wp_allFormatsFullyReady (audiobookId : Id) {chapterCount : ℕ} (hcount : 0 < chapterCount)
    (formats : List DeliveryFormat) (s : Store) (hs : GateInvariant s) :
    gateContract.wp (allFormatsFullyReady audiobookId chapterCount formats)
      (fun ready s' => ready = true → ∀ format ∈ formats, HasReady audiobookId format s')
      (fun _ _ => True) s := by
  induction formats generalizing s with
  | nil => exact fun _ format hformat => absurd hformat (List.not_mem_nil)
  | cons format formats ih =>
    refine Contract.wp_bind.mpr (Contract.wp_read (fun _ _ _ => trivial) fun s₁ hev _ => ?_)
    have hs₁ : GateInvariant s₁ := (hev hs).1
    have hstable : gateContract.Stable fun s => GateInvariant s ∧
        (isFormatFullyReady audiobookId format chapterCount s₁ = true →
          HasReady audiobookId format s) :=
      Contract.stable_of_mono fun s s' _ hstep hready h => hstep.hasReady (hready h)
    refine Contract.wp_bind.mpr (Contract.wp_mono ?_ (fun _ _ _ => trivial)
      (Contract.wp_frame hstable ⟨hs₁, hasReady_of_isFormatFullyReady hcount⟩ (ih s₁ hs₁)))
    rintro rest s₂ ⟨hrest, -, hfirst⟩ hall
    obtain ⟨hready, hrest'⟩ := Bool.and_eq_true_iff.mp hall
    exact List.forall_mem_cons.mpr ⟨hfirst hready, hrest hrest'⟩

theorem evolves_publish {audiobook : Audiobook} {bookId : Id} {u : Unit}
    (htx : publishAudiobook audiobook.id bookId s = .ok (u, s'))
    (hknown : KnownFormats audiobook (HasReady audiobook.id) s) : gateContract.evolves s s' := by
  intro hs
  have hrequests : JobRequests s s' := tx_requests (.publish audiobook.id bookId) s u s' htx
  have hbuilds : Builds s s' := tx_builds (.publish audiobook.id bookId) s u s' htx
  obtain rfl := publishAudiobook_eq_ok htx
  obtain ⟨a, ha, hsame, hready⟩ := hknown
  have hid : a.id = audiobook.id := by rw [hsame]
  have hstep : GateStep s _ := ⟨hrequests, hbuilds, refl_of (Persist _) _⟩
  refine ⟨hs.step hstep (nodup_map_updateWhere hs.audiobookIds fun _ => rfl) hs.renditionIds
    fun a' ha' => ?_, hstep⟩
  rcases mem_updateWhere.mp ha' with ⟨a₀, ha₀, hid₀, rfl⟩ | ⟨ha', -⟩
  · have hid₀ : a₀.id = audiobook.id := of_decide_eq_true hid₀
    obtain rfl : a₀ = a := List.inj_on_of_nodup_map hs.audiobookIds ha₀ ha (hid₀.trans hid.symm)
    refine .inl ⟨a₀, ha₀, rfl, fun _ => .inr ?_⟩
    rwa [RequestReady, hid]
  · exact origin_of_mem ha'

theorem safe_maybePublishAudiobook (audiobook : Audiobook) (s : Store) (hs : GateInvariant s)
    (hknown : KnownFormats audiobook (fun _ _ => True) s) :
    gateContract.Safe (maybePublishAudiobook audiobook) s := by
  rw [maybePublishAudiobook]
  split
  · exact Contract.safe_pure
  refine Contract.safe_bind_of_wp (Contract.wp_read (fun _ _ _ => trivial) fun s₁ hev hadm => ?_)
  -- The formats found are those of the request, or more.
  obtain ⟨hs₁, a, ha, hsame, -⟩ :=
    stable_knownFormats audiobook (fun _ _ _ _ => id) s s₁ hev ⟨hs, hknown⟩
  have hid : a.id = audiobook.id := by rw [hsame]
  have hfound : KnownFormats audiobook
      (fun format _ => format ∈ requestedFormats audiobook.id s₁) s₁ :=
    ⟨a, ha, hsame, hadm a ha hid⟩
  split
  · exact Contract.safe_pure
  have hcount : 0 < audiobook.chapterCount := by
    have := hs₁.chapters a ha
    rwa [hsame] at this
  refine Contract.safe_bind_of_wp (Contract.wp_mono ?_ (fun _ _ _ => trivial)
    (Contract.wp_frame (stable_knownFormats audiobook fun _ _ _ _ => id) ⟨hs₁, hfound⟩
      (wp_allFormatsFullyReady audiobook.id hcount _ s₁ hs₁)))
  rintro ready s₂ ⟨hready, hs₂, a₂, ha₂, hsame₂, hformats⟩
  split
  · exact Contract.safe_pure
  next hall =>
  have hreadyFormats : KnownFormats audiobook (HasReady audiobook.id) s₂ :=
    ⟨a₂, ha₂, hsame₂, fun format hformat =>
      hready (not_not.mp hall) format (hformats format hformat)⟩
  have hstable : gateContract.Stable fun s =>
      GateInvariant s ∧ KnownFormats audiobook (HasReady audiobook.id) s :=
    stable_knownFormats audiobook fun _ _ _ hstep => hstep.hasReady
  have hquery : ∀ {α : Type} (f : Store → α) (s : Store), gateContract.Safe (query f) s :=
    fun f s => Contract.safe_of_always (always_query (fun a w h => gate_routine a w h.2) f)
  refine Contract.safe_bind hstable ⟨hs₂, hreadyFormats⟩ (hquery _ s₂) fun _ s₃ hs₃ => ?_
  refine Contract.safe_bind hstable hs₃ (hquery _ s₃) fun current s₄ hs₄ => ?_
  split
  · exact Contract.safe_pure
  split
  · exact Contract.safe_pure
  refine Contract.wp_atomically (fun _ _ _ => trivial) fun s₅ _ s₆ hev₅ _ htx => ⟨?_, trivial⟩
  exact evolves_publish htx (hstable s₄ s₅ hev₅ hs₄).2

/-! ## Runs -/

theorem gateRules :
    AssemblyRules gateContract GateInvariant fun audiobook s =>
      GateInvariant s ∧ KnownFormats audiobook (fun _ _ => True) s where
  stable := Contract.stable_invariant
  stableKnown audiobook := stable_knownFormats audiobook fun _ _ _ _ => id
  known hs hfound := ⟨hs, _, List.mem_of_find?_eq_some hfound, rfl, fun _ _ => trivial⟩
  routine := gate_routine
  upsert := safe_upsertRendition
  publish audiobook s hs hknown := safe_maybePublishAudiobook audiobook s hs hknown.2

theorem gateInvariant_of_nothingAssembled (h : NothingAssembled s) :
    GateInvariant s where
  audiobookIds := by simp [h.audiobooks]
  renditionIds := by simp [h.renditions]
  requested := by simp [h.audiobooks]
  chapters := by simp [h.audiobooks]
  ready := by simp [h.audiobooks]

/-- In every state of a run whose accesses are well timed, an audiobook that was made `READY` has
a `READY` rendition in every format that its `assemble_audiobook` request listed. -/
theorem published_ready (computeManifestHash : List (Id × Hash) → Hash)
    {c : Config Store Access Fault}
    (hc : (assemblySystem computeManifestHash).Reachable Access.WellTimed c)
    {a : Audiobook} (ha : a ∈ c.store.audiobooks) (hready : a.status = .ready) :
    ∀ format ∈ originatingFormats a c.store, HasReady a.id format c.store := by
  have hrespects := gateRules.respects (fun s h => gateInvariant_of_nothingAssembled h)
    computeManifestHash
  obtain ⟨s₀, hinit, hev⟩ := hrespects.evolves_of_reachable hc
  exact (hev (gateInvariant_of_nothingAssembled hinit)).1.ready a ha hready

/-- The audiobooks with their status, and the formats of their request that are not ready. -/
def gateView (s : Store) : List (Id × AudiobookStatus × List DeliveryFormat) :=
  s.audiobooks.map fun a => (a.id, a.status,
    (originatingFormats a s).filter fun format => decide (¬ HasReady a.id format s))

def audiobookStatuses (s : Store) : List (Id × AudiobookStatus) :=
  s.audiobooks.map fun a => (a.id, a.status)

/-- Two formats are requested and encoded, after both encode jobs were created. -/
def bothEncoded : List (Move AssemblyRequest Fault) :=
  audiobookAssembled [.m4b, .m4a] 25 ++
    alone 3 15 (firstDelivery (encodeEnvelope 104 103 .m4b) 79) ++
    alone 4 18 (firstDelivery (encodeEnvelope 105 103 .m4a) 80)

/-- An audiobook of two formats is published when both are ready. -/
theorem bothEncoded_published :
    ∃ c : Config Store Access Fault, ∃ a ∈ c.store.audiobooks, a.status = .ready ∧
      (assemblySystem polynomialDigest).Reachable Access.WellTimed c ∧
      ∀ format ∈ originatingFormats a c.store, HasReady a.id format c.store := by
  have hplay : ((assemblySystem polynomialDigest).playAll Access.WellTimed ⟨narratedBook, []⟩
      bothEncoded).map (fun c => audiobookStatuses c.store) = some [(103, .ready)] := by
    decide +kernel
  obtain ⟨c, hrun, hstatus⟩ := System.exists_run_of_playAll (f := audiobookStatuses) hplay
  have hmem : (103, .ready) ∈ audiobookStatuses c.store := by simp [hstatus]
  obtain ⟨a, ha, heq⟩ := List.mem_map.mp hmem
  have hready : a.status = .ready := (Prod.mk.inj heq).2
  have hc : (assemblySystem polynomialDigest).Reachable Access.WellTimed c :=
    ⟨narratedBook, nothingAssembled_narratedBook, hrun⟩
  exact ⟨c, a, ha, hready, hc, published_ready polynomialDigest hc ha hready⟩

/-- The worker that creates the encode jobs crashes after the first of two; its format is
encoded. -/
def crashedBetweenFormats : List (Move AssemblyRequest Fault) :=
  audiobookAssembled [.m4b, .m4a] 20 ++ [.crash 2] ++
    alone 2 16 (firstDelivery (encodeEnvelope 104 103 .m4b) 79)

/-- The audiobook 103 is not `READY`. -/
def isUnpublished (s : Store) : Bool :=
  s.audiobooks.any fun a => decide (a.id = 103 ∧ a.status ≠ .ready)

/-- The audiobook 103 is `READY` without the M4A that was requested. -/
def isPublishedWithoutM4a (s : Store) : Bool :=
  s.audiobooks.any fun a => decide (a.id = 103 ∧ a.status = .ready ∧
    .m4a ∈ originatingFormats a s ∧ ¬ HasReady a.id .m4a s)

/-- It is not so that an audiobook becomes `READY` only with every requested format: after the
crash it is published in the first format alone. -/
theorem not_forall_published_ready :
    ¬ ∀ (computeManifestHash : List (Id × Hash) → Hash) (c c' : Config Store Access Fault),
      (assemblySystem computeManifestHash).Reachable anyAccess c →
      (assemblySystem computeManifestHash).Step anyAccess c c' →
      ∀ a ∈ c.store.audiobooks, ∀ a' ∈ c'.store.audiobooks, a'.id = a.id →
        a.status ≠ .ready → a'.status = .ready →
          ∀ format ∈ originatingFormats a' c'.store, HasReady a'.id format c'.store := by
  intro h
  have hplay : ((assemblySystem polynomialDigest).playAll anyAccess ⟨narratedBook, []⟩
      crashedBetweenFormats).bind (fun c₁ =>
        ((assemblySystem polynomialDigest).play anyAccess c₁ (.proceed 2)).map fun c₂ =>
          (isUnpublished c₁.store, isPublishedWithoutM4a c₂.store)) = some (true, true) := by
    decide +kernel
  obtain ⟨c, c', hrun, hstep, hbefore, hafter⟩ :=
    System.exists_run_step_of_playAll (f := isUnpublished) (g := isPublishedWithoutM4a) hplay
  obtain ⟨a, ha, hdec⟩ := List.any_eq_true.mp hbefore
  obtain ⟨a', ha', hdec'⟩ := List.any_eq_true.mp hafter
  obtain ⟨hid, hnot⟩ := of_decide_eq_true hdec
  obtain ⟨hid', hready, hrequested, hmissing⟩ := of_decide_eq_true hdec'
  exact hmissing (h polynomialDigest c c' ⟨narratedBook, nothingAssembled_narratedBook, hrun⟩ hstep
    a ha a' ha' (hid'.trans hid.symm) hnot hready .m4a hrequested)

end AudioBook
