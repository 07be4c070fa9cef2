import AudioBook.Assembly.Effects
import AudioBook.Assembly.FollowUp
import AudioBook.Concurrent.Runs
import AudioBook.Schema.Constraints

/-!
# The Manifest of a Chapter's Audio

Whether a chapter's current audio is the one that the last successful assembly was asked for. The
processor looks for a row of the manifest that it computed, current or not, and when there is one
it makes its job `SUCCEEDED` and changes nothing. A chapter whose chunks get their earlier audio
back finds the row of that time, which another one has superseded.

Main results:

- `currentManifest_iff`: after a successful assembly the current audio has its manifest exactly
  when the chapter had no superseded audio of that manifest.
-/

namespace AudioBook

open Relational Concurrent

/-! ## The Audio of One Chapter -/

def audiosOf (chapterId : Id) (s : Store) : List ChapterAudio :=
  s.chapterAudios.filter fun a => decide (a.chapterId = chapterId)

variable {chapterId : Id}

theorem mem_audiosOf {s : Store} {a : ChapterAudio} :
    a ∈ audiosOf chapterId s ↔ a ∈ s.chapterAudios ∧ a.chapterId = chapterId := by
  simp [audiosOf]

def SameAudios (chapterId : Id) (s s' : Store) : Prop :=
  audiosOf chapterId s' = audiosOf chapterId s

instance (chapterId : Id) : IsPreorder Store (SameAudios chapterId) where
  refl _ := rfl
  trans _ _ _ h₁ h₂ := h₂.trans h₁

theorem SameAudios.of_eq {s s' : Store} (h : s'.chapterAudios = s.chapterAudios) :
    SameAudios chapterId s s' := by
  rw [SameAudios, audiosOf, audiosOf, h]

theorem tx_sameAudios {a : Access} (ha : ∀ jobId row, a ≠ .persistChapterAudio jobId row) :
    a.tx.Within (SameAudios chapterId) := by
  have hjob : ∀ jobId f, (updateJob jobId f).Within (SameAudios chapterId) := fun jobId f =>
    updateJob_within fun s => .of_eq rfl
  cases a with
  | query => exact Transaction.within_pure ()
  | requestedFormats audiobookId => exact Transaction.within_pure ()
  | readCancellationFlag jobId => exact Transaction.within_pure ()
  | external => exact Transaction.within_pure ()
  | freshId =>
    rintro s _ s' h
    cases h
    exact .of_eq rfl
  | enqueue envelope => exact enqueueMessage_within (fun s queue => .of_eq rfl) _
  | removeQueuedJob jobId => exact Transaction.within_modify fun s => .of_eq rfl
  | setCancellationFlag jobId => exact Transaction.within_modify fun s => .of_eq rfl
  | createJobs jobs => exact createJobs_within fun job _ s _ => .of_eq rfl
  | createTtsJobs coordinator jobs =>
    refine Transaction.within_bind (Table.within_insert _ fun s _ => .of_eq rfl) fun _ => ?_
    exact createSyntheses_within (fun s rows => .of_eq rfl) fun s rows => .of_eq rfl
  | cancelJobs jobs => exact cancelJobs_within fun p _ => hjob _ _
  | markQueued jobId => exact hjob _ _
  | halt jobId seen => exact hjob _ _
  | markRunning jobId seen => exact hjob _ _
  | markSucceeded jobId seen => exact hjob _ _
  | markFailed jobId seen errorCode => exact hjob _ _
  | persistChapterAudio jobId row => exact absurd rfl (ha jobId row)
  | persistAudiobook jobId audiobook =>
    refine Transaction.within_bind (Table.within_update _ fun s _ => .of_eq rfl) fun _ => ?_
    refine Transaction.within_bind (Table.within_insert _ fun s _ => .of_eq rfl) fun _ => ?_
    exact hjob _ _
  | updateRendition renditionId rendition => exact Table.within_update _ fun s _ => .of_eq rfl
  | createRendition rendition => exact Table.within_insert _ fun s _ => .of_eq rfl
  | failEncode jobId seen errorCode audiobookId format existing newId failAudiobook =>
    exact failEncode_within (hjob _ _) (fun s rows => .of_eq rfl) fun s rows => .of_eq rfl
  | publish audiobookId bookId =>
    exact Transaction.within_bind (Table.within_update _ fun s _ => .of_eq rfl) fun _ =>
      Table.within_update _ fun s _ => .of_eq rfl
  | insertChunks chunks => exact insertChunks_within (fun s rows => .of_eq rfl) _
  | insertAudioChunk new =>
    exact Transaction.within_bind (insertAudioChunk_within (fun s rows => .of_eq rfl)
      (fun s rows => .of_eq rfl) (fun s rows => .of_eq rfl) _) fun _ => Transaction.within_pure ()

theorem sameAudios_of_plain (a : Access) (w : Store → Store) (h : a.Plain w) (s : Store) :
    SameAudios chapterId s (w s) := by
  obtain ⟨hmarks, -, -, rfl | rfl⟩ := h
  · exact refl_of (SameAudios chapterId) s
  · rw [Prog.commit]
    split
    · next u s' htx =>
      refine tx_sameAudios (fun jobId row heq => hmarks ?_) s u s' htx
      rw [heq]
      trivial
    · exact refl_of (SameAudios chapterId) s

/-! ## Storing a Chapter's Audio -/

def withCurrentAudio (row : ChapterAudio) (rows : List ChapterAudio) : List ChapterAudio :=
  rows.map (fun a => if a.isCurrent then { a with isCurrent := false } else a) ++ [row]

theorem persistChapterAudio_eq_ok {jobId : Id} {row : ChapterAudio} {s s' : Store} {u : Unit}
    (h : persistChapterAudio jobId row s = .ok (u, s')) :
    audiosOf row.chapterId s' = withCurrentAudio row (audiosOf row.chapterId s) := by
  obtain ⟨_, s₁, h₁, h⟩ := Transaction.bind_eq_ok_iff.mp h
  obtain ⟨_, s₂, h₂, h⟩ := Transaction.bind_eq_ok_iff.mp h
  obtain ⟨-, rfl⟩ := (Table.update_eq_ok_iff (ε := Fault) _).mp h₁
  obtain ⟨-, rfl⟩ := (Table.insert_eq_ok_iff (ε := Fault) _).mp h₂
  obtain ⟨-, -, rfl⟩ := updateJob_eq_ok_iff.mp h
  have hchapter : ∀ a : ChapterAudio, decide ((if decide (a.chapterId = row.chapterId ∧ a.isCurrent)
      then { a with isCurrent := false } else a).chapterId = row.chapterId) =
        decide (a.chapterId = row.chapterId) := by
    intro a
    split <;> rfl
  simp only [audiosOf, withCurrentAudio, Db.chapterAudio, updateWhere, List.filter_append,
    List.filter_map, Function.comp_def, hchapter]
  congr 1
  · refine List.map_congr_left fun a ha => ?_
    have ha : a.chapterId = row.chapterId := of_decide_eq_true (List.mem_filter.mp ha).2
    simp [ha]
  · simp

/-! ## What an Assembly Does to the Chapter -/

variable (computeManifestHash : List (Id × Hash) → Hash)

/-- The manifest that an execution of the processor computed: its third access, after the job's and
the chapter's row, reads the chunks. -/
def computedManifest (chapterId : Id) (es : List AccessEvent) : Option Hash :=
  es[2]?.map fun y => computeManifestHash (chunkManifest (currentChunks chapterId y.store))

/-- The job of an execution became `SUCCEEDED`. -/
def Succeeded (es : List AccessEvent) : Prop :=
  ∃ x ∈ es, MadeSuccess x

/-- What a successful assembly from a manifest does to the audio of its chapter. -/
inductive AssemblyEffect (chunkManifestHash : Hash) (rows rows' : List ChapterAudio) : Prop
  /-- There was a row of the manifest, and nothing changed. -/
  | found (a : ChapterAudio) (ha : a ∈ rows) (hpreview : a.isPreviewBuild = false)
      (hmanifest : a.chunkManifestHash = chunkManifestHash) (hrows : rows' = rows)
  /-- There was none, and a new row of the manifest became the current one. -/
  | stored (row : ChapterAudio)
      (hnone : ∀ a ∈ rows, a.isPreviewBuild = false → a.chunkManifestHash ≠ chunkManifestHash)
      (hcurrent : row.isCurrent = true) (hpreview : row.isPreviewBuild = false)
      (hmanifest : row.chunkManifestHash = chunkManifestHash)
      (hrows : rows' = withCurrentAudio row rows)

/-- An access that leaves the audio of a chapter alone and makes no job `SUCCEEDED`. -/
def Access.Unsuccessful (chapterId : Id) (a : Access) (w : Store → Store) : Prop :=
  (∀ s, SameAudios chapterId s (w s)) ∧ ∀ x : AccessEvent, x.label = a → ¬ MadeSuccess x

theorem unsuccessful_of_plain (a : Access) (w : Store → Store) (h : a.Plain w) :
    a.Unsuccessful chapterId w :=
  ⟨sameAudios_of_plain a w h, not_madeSuccess_of_plain a w h⟩

section effect

variable {computeManifestHash} {chapterId : Id} {others : Store → Store → Prop}
  (hrefl : ∀ s, others s s) (hothers : ∀ s s', others s s' → SameAudios chapterId s s')
  {D : List ChapterAudio → List ChapterAudio → Prop} {s s' : Store} {es : List AccessEvent}

theorem succeeded_append_iff {es₁ es₂ : List AccessEvent} (h : ¬ Succeeded es₁) :
    Succeeded (es₁ ++ es₂) ↔ Succeeded es₂ := by
  constructor
  · rintro ⟨x, hx, hsuccess⟩
    rcases List.mem_append.mp hx with hx | hx
    · exact absurd ⟨x, hx, hsuccess⟩ h
    · exact ⟨x, hx, hsuccess⟩
  · rintro ⟨x, hx, hsuccess⟩
    exact ⟨x, List.mem_append_right _ hx, hsuccess⟩

include hothers

variable {α : Type}

theorem runs_of_unsuccessful {p : Service α} {r : Ending Fault α}
    (hp : p.Always (Access.Unsuccessful chapterId)) (h : p.Runs others s es r s') :
    ¬ Succeeded es ∧ SameAudios chapterId s s' := by
  refine ⟨?_, h.related hothers (hp.mono fun _ _ h => h.1)⟩
  rintro ⟨x, hx, hsuccess⟩
  obtain ⟨w, hw⟩ := hp.of_trace h.trace x hx
  exact hw.2 x rfl hsuccess

/-- Every execution of a program either has no success and leaves the audio of the chapter alone,
or changes it as `D` says. -/
def Ends (chapterId : Id) (others : Store → Store → Prop)
    (D : List ChapterAudio → List ChapterAudio → Prop) {α : Type} (p : Service α) : Prop :=
  ∀ s es r s', p.Runs others s es r s' → (¬ Succeeded es ∧ SameAudios chapterId s s') ∨
    D (audiosOf chapterId s) (audiosOf chapterId s')

include hrefl

theorem ends_bind {β : Type} {p : Service α} {f : α → Service β}
    (hp : p.Always (Access.Unsuccessful chapterId)) (hf : ∀ a, Ends chapterId others D (f a)) :
    Ends chapterId others D (p >>= f) := by
  intro s es r s' h
  rcases Prog.runs_bind hrefl h with ⟨a, es₁, es₂, s₁, rfl, h₁, h₂⟩ | ⟨e, rfl, h₁⟩ | ⟨rfl, h₁⟩
  · obtain ⟨hnot, hsame⟩ := runs_of_unsuccessful hothers hp h₁
    rcases hf a s₁ es₂ r s' h₂ with ⟨hnot₂, hsame₂⟩ | hD
    · exact .inl ⟨fun hsucc => hnot₂ ((succeeded_append_iff hnot).mp hsucc),
        trans_of (SameAudios chapterId) hsame hsame₂⟩
    · exact .inr (hsame ▸ hD)
  · exact .inl (runs_of_unsuccessful hothers hp h₁)
  · exact .inl (runs_of_unsuccessful hothers hp h₁)

theorem ends_bind_of_ends {β : Type} {p : Service α} {f : α → Service β}
    (hp : Ends chapterId others D p) (hf : ∀ a, (f a).Always (Access.Unsuccessful chapterId)) :
    Ends chapterId others D (p >>= f) := by
  intro s es r s' h
  rcases Prog.runs_bind hrefl h with ⟨a, es₁, es₂, s₁, rfl, h₁, h₂⟩ | ⟨e, rfl, h₁⟩ | ⟨rfl, h₁⟩
  · obtain ⟨hnot, hsame⟩ := runs_of_unsuccessful hothers (hf a) h₂
    rcases hp s es₁ _ s₁ h₁ with ⟨hnot₁, hsame₁⟩ | hD
    · exact .inl ⟨fun hsucc => hnot ((succeeded_append_iff hnot₁).mp hsucc),
        trans_of (SameAudios chapterId) hsame₁ hsame⟩
    · exact .inr (hsame.symm ▸ hD)
  · exact hp s es _ s' h₁
  · exact hp s es _ s' h₁

theorem ends_tryCatch {p : Service α} {handler : Fault → Service α} (hp : Ends chapterId others D p)
    (hh : ∀ e, (handler e).Always (Access.Unsuccessful chapterId)) :
    Ends chapterId others D (tryCatchThe Fault p handler) := by
  intro s es r s' h
  rcases Prog.runs_tryCatch hrefl h with ⟨e, es₁, es₂, s₁, rfl, h₁, h₂⟩ | ⟨a, rfl, h₁⟩ | ⟨rfl, h₁⟩
  · obtain ⟨hnot, hsame⟩ := runs_of_unsuccessful hothers (hh e) h₂
    rcases hp s es₁ _ s₁ h₁ with ⟨hnot₁, hsame₁⟩ | hD
    · exact .inl ⟨fun hsucc => hnot ((succeeded_append_iff hnot₁).mp hsucc),
        trans_of (SameAudios chapterId) hsame₁ hsame⟩
    · exact .inr (hsame.symm ▸ hD)
  · exact hp s es _ s' h₁
  · exact hp s es _ s' h₁

omit hrefl in
theorem ends_markSucceeded {jobId : Id} {seen : JobStatus} :
    Ends chapterId others (fun rows rows' => rows' = rows) (perform (.markSucceeded jobId seen)) := by
  intro s es r s' h
  refine .inr (h.related (R := SameAudios chapterId) hothers (Prog.always_atomically fun s => ?_))
  rw [Prog.commit]
  split
  · next u s' htx => exact tx_sameAudios (by simp) s u s' htx
  · exact refl_of (SameAudios chapterId) s

omit hrefl in
theorem ends_persistChapterAudio {jobId : Id} {row : ChapterAudio} (hrow : row.chapterId = chapterId) :
    Ends chapterId others (fun rows rows' => rows' = withCurrentAudio row rows)
      (perform (.persistChapterAudio jobId row)) := by
  subst hrow
  intro s es r s' h
  rcases Prog.runs_atomically h with ⟨rfl, h₀⟩ | ⟨x, rfl, hlabel, h₁, h₂⟩
  · exact .inl ⟨by simp [Succeeded], hothers _ _ h₀⟩
  have hbefore := hothers _ _ h₁
  have hafter := hothers _ _ h₂
  by_cases heffect : x.TookEffect ∧ Prog.Commits (Access.persistChapterAudio jobId row).tx x.store
  · obtain ⟨htook, u, s₁, htx⟩ := heffect
    rw [Event.after_of_effect htook htx] at hafter
    exact .inr (by rw [hafter, persistChapterAudio_eq_ok htx, hbefore])
  · rw [Event.after_of_no_effect heffect] at hafter
    refine .inl ⟨?_, trans_of (SameAudios row.chapterId) hbefore hafter⟩
    rintro ⟨y, hy, -, hmade⟩
    obtain rfl := List.mem_singleton.mp hy
    exact heffect (hlabel ▸ hmade)

theorem ends_assembleChapter {job : ProcessingJob} {chunks : List OrderedChunk}
    {chunkManifestHash : Hash} {directorVersion : ℕ} {d : Delivery} :
    Ends chapterId others (fun rows rows' => ∃ row : ChapterAudio, row.isCurrent = true ∧
      row.isPreviewBuild = false ∧ row.chunkManifestHash = chunkManifestHash ∧
        rows' = withCurrentAudio row rows)
      (assembleChapter job chapterId chunks chunkManifestHash directorVersion d) := by
  have hP : ∀ (a : Access) w, a.Plain w → a.Unsuccessful chapterId w := unsuccessful_of_plain
  refine ends_bind hrefl hothers (always_external hP) fun _ => ?_
  refine ends_bind hrefl hothers (always_query hP _) fun nextVersion => ?_
  refine ends_bind hrefl hothers (always_external hP) fun _ => ?_
  refine ends_bind hrefl hothers (always_freshId hP) fun chapterAudioId => ?_
  refine ends_bind_of_ends hrefl hothers ?_ fun _ => always_maybeTriggerAudiobookFanIn hP job
  intro s es r s' h
  refine (ends_persistChapterAudio hothers rfl s es r s' h).imp_right fun hrows => ?_
  exact ⟨_, rfl, rfl, rfl, hrows⟩

theorem runs_query_bind {β : Type} {g : Store → α} {f : α → Service β} {r : Ending Fault β}
    (h : (query g >>= f).Runs others s es r s') :
    (¬ Succeeded es ∧ SameAudios chapterId s s') ∨ ∃ s₁ es', SameAudios chapterId s s₁ ∧
      es = ⟨.query, s₁, .done⟩ :: es' ∧ (Succeeded es ↔ Succeeded es') ∧
        (f (g s₁)).Runs others s₁ es' r s' := by
  have hquery : ∀ x : AccessEvent, x.label = .query → ¬ MadeSuccess x := by
    rintro x hx ⟨hmarks, -⟩
    rw [hx] at hmarks
    exact hmarks
  rcases Prog.runs_read_bind hrefl h with ⟨hes, s₁, h₁, h₂⟩ | ⟨s₁, es', h₁, rfl, hrest⟩
  · refine .inl ⟨?_, trans_of (SameAudios chapterId) (hothers _ _ h₁) (hothers _ _ h₂)⟩
    rintro ⟨x, hx, hsuccess⟩
    exact hquery x (hes x hx) hsuccess
  · have hnot : ¬ Succeeded [(⟨.query, s₁, .done⟩ : AccessEvent)] := by
      rintro ⟨x, hx, hsuccess⟩
      exact hquery x (by rw [List.mem_singleton.mp hx]) hsuccess
    exact .inr ⟨s₁, es', hothers _ _ h₁, rfl, succeeded_append_iff hnot, hrest⟩

theorem ends_of_manifest {job : ProcessingJob} (hseen : job.status ∉ [.succeeded, .failed])
    {chunks : List OrderedChunk} {chunkManifestHash : Hash} {directorVersion : ℕ} {d : Delivery} :
    Ends chapterId others (AssemblyEffect chunkManifestHash) (do
      if (← query (findChapterAudio chapterId chunkManifestHash)).isSome then
        perform (.markSucceeded job.id job.status)
        maybeTriggerAudiobookFanIn job
        return
      perform (.markRunning job.id job.status)
      tryCatch (assembleChapter job chapterId chunks chunkManifestHash directorVersion d)
        fun err => do
          handleChapterAssemblyFailure job err d
          throw err) := by
  have hP : ∀ (a : Access) w, a.Plain w → a.Unsuccessful chapterId w := unsuccessful_of_plain
  intro s es r s' h
  rcases runs_query_bind hrefl hothers h with hnone | ⟨s₁, es', hsame, rfl, hsucceeded, hrest⟩
  · exact .inl hnone
  -- The audio of the chapter did not change before the lookup.
  have hfound : ∀ a : ChapterAudio, a ∈ audiosOf chapterId s ↔
      a ∈ s₁.chapterAudios ∧ a.chapterId = chapterId := fun a => by rw [← mem_audiosOf, hsame]
  cases hexisting : findChapterAudio chapterId chunkManifestHash s₁ with
  | some a =>
    rw [hexisting] at hrest
    have hends : Ends chapterId others (fun rows rows' => rows' = rows) (do
        perform (.markSucceeded job.id job.status)
        maybeTriggerAudiobookFanIn job
        return) :=
      ends_bind_of_ends hrefl hothers (ends_markSucceeded hothers) fun _ =>
        Prog.always_bind (always_maybeTriggerAudiobookFanIn hP job) fun _ => trivial
    rcases hends s₁ es' r s' hrest with ⟨hnot, hsame'⟩ | hrows
    · exact .inl ⟨mt hsucceeded.mp hnot, trans_of (SameAudios chapterId) hsame hsame'⟩
    · have ha := List.find?_some hexisting
      obtain ⟨hchapter, hmanifest, hpreview⟩ := of_decide_eq_true ha
      have hmem := (hfound a).mpr ⟨List.mem_of_find?_eq_some hexisting, hchapter⟩
      exact .inr (.found a hmem hpreview hmanifest (hrows.trans hsame))
  | none =>
    rw [hexisting] at hrest
    have hends : Ends chapterId others (fun rows rows' => ∃ row : ChapterAudio,
        row.isCurrent = true ∧ row.isPreviewBuild = false ∧
          row.chunkManifestHash = chunkManifestHash ∧ rows' = withCurrentAudio row rows) (do
        perform (.markRunning job.id job.status)
        tryCatch (assembleChapter job chapterId chunks chunkManifestHash directorVersion d)
          fun err => do
            handleChapterAssemblyFailure job err d
            throw err) := by
      refine ends_bind hrefl hothers (always_perform hP not_false not_false hseen) fun _ => ?_
      refine ends_tryCatch hrefl hothers (ends_assembleChapter hrefl hothers) fun err => ?_
      refine Prog.always_bind ?_ fun _ => trivial
      rw [handleChapterAssemblyFailure]
      split
      · trivial
      · exact always_recordFailure hP (by simp) _ _
    rcases hends s₁ es' r s' hrest with ⟨hnot, hsame'⟩ | ⟨row, hcurrent, hpreview, hmanifest, hrows⟩
    · exact .inl ⟨mt hsucceeded.mp hnot, trans_of (SameAudios chapterId) hsame hsame'⟩
    · refine .inr (.stored row (fun a ha hpreview' hmanifest' => ?_) hcurrent hpreview hmanifest
        (hsame ▸ hrows))
      obtain ⟨hmem, hchapter⟩ := (hfound a).mp ha
      have hnot := List.find?_eq_none.mp hexisting a hmem
      exact hnot (decide_eq_true ⟨hchapter, hmanifest', hpreview'⟩)

theorem runs_processAssembleChapterJob {d : Delivery} {r : Ending Fault Unit}
    (h : (processAssembleChapterJob computeManifestHash chapterId d).Runs others s es r s') :
    (¬ Succeeded es ∧ SameAudios chapterId s s') ∨
      ∃ chunkManifestHash, computedManifest computeManifestHash chapterId es = some chunkManifestHash ∧
        AssemblyEffect chunkManifestHash (audiosOf chapterId s) (audiosOf chapterId s') := by
  have hP : ∀ (a : Access) w, a.Plain w → a.Unsuccessful chapterId w := unsuccessful_of_plain
  -- An execution that goes on without success from a store with the same audio.
  have hstop : ∀ (p : Service Unit) s₁ es₁, p.Always (Access.Unsuccessful chapterId) →
      p.Runs others s₁ es₁ r s' → SameAudios chapterId s s₁ → (Succeeded es → Succeeded es₁) →
        ¬ Succeeded es ∧ SameAudios chapterId s s' := by
    intro p s₁ es₁ hp hrun hsame hsucceeded
    obtain ⟨hnot, hsame'⟩ := runs_of_unsuccessful hothers hp hrun
    exact ⟨mt hsucceeded hnot, trans_of (SameAudios chapterId) hsame hsame'⟩
  have hrefl' := refl_of (SameAudios chapterId)
  have hthrow : (throw .uncoded : Service Unit).Always (Access.Unsuccessful chapterId) := trivial
  have hpure : (pure () : Service Unit).Always (Access.Unsuccessful chapterId) := trivial
  rw [processAssembleChapterJob] at h
  split at h
  · exact .inl (hstop _ s es hthrow h (hrefl' s) id)
  -- The first access reads the row of the job.
  rcases runs_query_bind hrefl hothers h with hnone | ⟨s₁, es₁, hsame₁, hes₁, hsucceeded₁, h₁⟩
  · exact .inl hnone
  split at h₁
  · exact .inl (hstop _ s₁ es₁ hthrow h₁ hsame₁ hsucceeded₁.mp)
  next job _ =>
  split at h₁
  · exact .inl (hstop _ s₁ es₁ hpure h₁ hsame₁ hsucceeded₁.mp)
  next hjob =>
  have hseen : job.status ∉ [.succeeded, .failed] := by simpa using hjob
  split at h₁
  · exact .inl (hstop _ s₁ es₁ hthrow h₁ hsame₁ hsucceeded₁.mp)
  -- The second one reads the row of the chapter.
  rcases runs_query_bind hrefl hothers h₁ with ⟨hnot, hsame⟩ | ⟨s₂, es₂, hsame₂, hes₂, hsucceeded₂, h₂⟩
  · exact .inl ⟨mt hsucceeded₁.mp hnot, trans_of (SameAudios chapterId) hsame₁ hsame⟩
  have hsame₁₂ := trans_of (SameAudios chapterId) hsame₁ hsame₂
  have hsucceeded₁₂ := hsucceeded₁.trans hsucceeded₂
  cases hfound : findChapter chapterId s₂ with
  | none =>
    rw [hfound] at h₂
    exact .inl (hstop _ s₂ es₂ hthrow h₂ hsame₁₂ hsucceeded₁₂.mp)
  | some chapter =>
    rw [hfound] at h₂
    have hid := List.find?_some hfound
    obtain rfl : chapter.id = chapterId := of_decide_eq_true hid
    -- The third one reads the chunks.
    rcases runs_query_bind hrefl hothers h₂ with ⟨hnot, hsame⟩ | ⟨s₃, es₃, hsame₃, hes₃, hsucceeded₃, h₃⟩
    · exact .inl ⟨mt hsucceeded₁₂.mp hnot, trans_of (SameAudios chapter.id) hsame₁₂ hsame⟩
    have hsame' := trans_of (SameAudios chapter.id) hsame₁₂ hsame₃
    have hsucceeded := hsucceeded₁₂.trans hsucceeded₃
    split at h₃
    · split at h₃
      · refine .inl (hstop _ s₃ es₃ (Prog.always_bind ?_ fun _ => hpure) h₃ hsame' hsucceeded.mp)
        exact always_recordFailure hP (by simp) _ _
      rcases ends_of_manifest hrefl hothers hseen s₃ es₃ r s' h₃ with ⟨hnot, hsame⟩ | heffect
      · exact .inl ⟨mt hsucceeded.mp hnot, trans_of (SameAudios chapter.id) hsame' hsame⟩
      · refine .inr ⟨_, ?_, hsame' ▸ heffect⟩
        simp [computedManifest, hes₁, hes₂, hes₃]
    · exact .inl (hstop _ s₃ es₃ (always_recordFailure hP (by simp) _ _) h₃ hsame' hsucceeded.mp)

end effect

/-! ## Assemblies One After the Other -/

/-- No two rows that are no preview builds have the same manifest. -/
def DistinctManifests (rows : List ChapterAudio) : Prop :=
  UniqueWhere (fun a : ChapterAudio =>
    if a.isPreviewBuild then none else some a.chunkManifestHash) rows

/-- The chapter's current audio was assembled from a manifest. -/
def CurrentManifest (chapterId : Id) (chunkManifestHash : Hash) (s : Store) : Prop :=
  ∃ a ∈ audiosOf chapterId s, a.isPreviewBuild = false ∧ a.isCurrent = true ∧
    a.chunkManifestHash = chunkManifestHash

/-- No audio of a manifest was superseded. -/
def NoneSuperseded (chapterId : Id) (chunkManifestHash : Hash) (s : Store) : Prop :=
  ∀ a ∈ audiosOf chapterId s, a.isPreviewBuild = false →
    a.chunkManifestHash = chunkManifestHash → a.isCurrent = true

/-- The stores that assemblies of one chapter lead to, one after the other, whatever fails in them.
Everyone else may do anything at any time but assemble this chapter. -/
inductive AssemblyHistory (others : Store → Store → Prop) (chapterId : Id) : Store → Prop
  | start {s : Store} (h : Db.ChapterAudiosOk s.chapterAudios) : AssemblyHistory others chapterId s
  | changed {s s' : Store} (h : AssemblyHistory others chapterId s) (hothers : others s s') :
      AssemblyHistory others chapterId s'
  | assembled {s s' : Store} {d : Delivery} {es : List AccessEvent} {r : Ending Fault Unit}
      (h : AssemblyHistory others chapterId s)
      (hrun : (processAssembleChapterJob computeManifestHash chapterId d).Runs others s es r s') :
      AssemblyHistory others chapterId s'

section history

variable {computeManifestHash} {chapterId : Id} {others : Store → Store → Prop}
  (hrefl : ∀ s, others s s) (hothers : ∀ s s', others s s' → SameAudios chapterId s s')
  {s s' : Store}

theorem distinctManifests_of_accepted (h : Db.ChapterAudiosOk s.chapterAudios) :
    DistinctManifests (audiosOf chapterId s) := by
  have hmanifest := h.manifest.sublist
    ((List.filter_sublist (p := fun a => decide (a.chapterId = chapterId))).filterMap _)
  have hkey : (audiosOf chapterId s).filterMap (fun a =>
      if a.isPreviewBuild then none else some (a.chapterId, a.chunkManifestHash)) =
        ((audiosOf chapterId s).filterMap fun a =>
          if a.isPreviewBuild then none else some a.chunkManifestHash).map fun h => (chapterId, h) := by
    rw [List.map_filterMap]
    refine List.filterMap_congr fun a ha => ?_
    rw [(mem_audiosOf.mp ha).2]
    split <;> rfl
  exact List.Nodup.of_map _ (hkey ▸ hmanifest)

theorem AssemblyEffect.distinctManifests {chunkManifestHash : Hash} {rows rows' : List ChapterAudio}
    (h : AssemblyEffect chunkManifestHash rows rows') (hrows : DistinctManifests rows) :
    DistinctManifests rows' := by
  cases h with
  | found a ha hpreview hmanifest heq => exact heq ▸ hrows
  | stored row hnone hcurrent hpreview hmanifest heq =>
    subst heq
    rw [DistinctManifests, withCurrentAudio, uniqueWhere_concat_iff]
    have hkey : (rows.map fun a => if a.isCurrent then { a with isCurrent := false } else a).filterMap
        (fun a => if a.isPreviewBuild then none else some a.chunkManifestHash) = rows.filterMap
          fun a => if a.isPreviewBuild then none else some a.chunkManifestHash := by
      rw [List.filterMap_map]
      refine List.filterMap_congr fun a _ => ?_
      rw [Function.comp]
      split <;> rfl
    refine ⟨by rwa [UniqueWhere, hkey], fun k hk a ha hka => ?_⟩
    obtain rfl : row.chunkManifestHash = k := by simpa [hpreview] using hk
    obtain ⟨a₀, ha₀, rfl⟩ := List.mem_map.mp ha
    have hkept : a₀.isPreviewBuild = false ∧ a₀.chunkManifestHash = row.chunkManifestHash := by
      cases hcurrent₀ : a₀.isCurrent <;> simpa [hcurrent₀] using hka
    exact hnone a₀ ha₀ hkept.1 (hkept.2.trans hmanifest)

include hrefl hothers

theorem AssemblyHistory.distinctManifests
    (h : AssemblyHistory computeManifestHash others chapterId s) :
    DistinctManifests (audiosOf chapterId s) := by
  induction h with
  | start h => exact distinctManifests_of_accepted h
  | changed _ h ih => exact hothers _ _ h ▸ ih
  | assembled _ hrun ih =>
    rcases runs_processAssembleChapterJob hrefl hothers hrun with ⟨-, hsame⟩ | ⟨_, -, heffect⟩
    · exact hsame ▸ ih
    · exact heffect.distinctManifests ih

/-- After any assemblies of a chapter, with any changes of its audio chunks in between, an assembly
that computed a manifest and succeeded leaves the chapter with current audio of that manifest
exactly when no audio of it had been superseded before. -/
theorem currentManifest_iff (hs : AssemblyHistory computeManifestHash others chapterId s)
    {d : Delivery} {es : List AccessEvent} {r : Ending Fault Unit} {chunkManifestHash : Hash}
    (hrun : (processAssembleChapterJob computeManifestHash chapterId d).Runs others s es r s')
    (hmanifest : computedManifest computeManifestHash chapterId es = some chunkManifestHash)
    (hsucceeded : Succeeded es) :
    CurrentManifest chapterId chunkManifestHash s' ↔
      NoneSuperseded chapterId chunkManifestHash s := by
  rcases runs_processAssembleChapterJob hrefl hothers hrun with ⟨hnot, -⟩ | ⟨_, hcomputed, heffect⟩
  · exact absurd hsucceeded hnot
  obtain rfl := Option.some.inj (hmanifest.symm.trans hcomputed)
  have hdistinct := hs.distinctManifests hrefl hothers
  rw [CurrentManifest, NoneSuperseded]
  generalize audiosOf chapterId s' = rows' at heffect
  generalize audiosOf chapterId s = rows at heffect hdistinct
  cases heffect with
  | found a ha hpreview hmanifest hrows =>
    subst hrows
    constructor
    · rintro ⟨b, hb, hpreview', hcurrent, hmanifest'⟩ c hc hpreview'' hmanifest''
      obtain rfl : b = c := hdistinct.eq_of_key (k := chunkManifestHash) hb hc
        (by simp [hpreview', hmanifest']) (by simp [hpreview'', hmanifest''])
      exact hcurrent
    · exact fun hnone => ⟨a, ha, hpreview, hnone a ha hpreview hmanifest, hmanifest⟩
  | stored row hnone hcurrent hpreview hmanifest hrows =>
    subst hrows
    refine iff_of_true ⟨row, by simp [withCurrentAudio], hpreview, hcurrent, hmanifest⟩ ?_
    exact fun a ha hpreview' hmanifest' => absurd hmanifest' (hnone a ha hpreview')

end history

/-! ## Going Back to an Earlier Manifest -/

/-- The small book with three renderings of its chunk. -/
def rerenderedBook : Store := { narratedBook with
  audioChunks := [6, 16, 26].map fun i => {
    id := i, audioScriptChunkId := 5, ttsJobId := 7, chapterId := 3, isCurrent := decide (i = 6),
    status := .validated, contentHash := 70 + i, durationMs := 900, objectVerified := true } }

def withRendering (audioChunkId : Id) (s : Store) : Store :=
  { s with audioScriptChunks := s.audioScriptChunks.map fun c =>
      { c with currentAudioChunkId := some audioChunkId } }

/-- A user asks for the chapter with one of its renderings, and another one is current when the
worker starts. -/
def requestedWith (requested delivered : Id) (s : Store) : Store :=
  withRendering delivered
    ((startAssembly polynomialDigest 1 { scope := .chapter, chapterIds := [3] }).evaluate
      (fun _ => none) (withRendering requested s)).2

def assembledBy (jobId : Id) (s : Store) : List AccessEvent × Ending Fault Unit × Store :=
  (processAssembleChapterJob polynomialDigest 3 ⟨chapterEnvelope jobId 3, 0, 77⟩).execute s
    (List.replicate 20 .done)

/-- The chapter after it was assembled from the first rendering, then from the second. -/
def assembledTwiceOver : Store :=
  (assembledBy 102 (requestedWith 16 16 (assembledBy 100 (requestedWith 6 6 rerenderedBook)).2.2)).2.2

/-- The third request is for the third rendering; the worker meets the first one again. -/
def assembledAgain : List AccessEvent × Ending Fault Unit × Store :=
  assembledBy 104 (requestedWith 26 6 assembledTwiceOver)

theorem runs_assembledBy (jobId : Id) (s : Store) :
    (processAssembleChapterJob polynomialDigest 3 ⟨chapterEnvelope jobId 3, 0, 77⟩).Runs
      (SameAudios 3) s (assembledBy jobId s).1 (assembledBy jobId s).2.1 (assembledBy jobId s).2.2 :=
  Prog.runs_execute (refl_of (SameAudios 3)) _ _ _

theorem sameAudios_requestedWith (requested delivered : Id) (s : Store) :
    SameAudios 3 s (requestedWith requested delivered s) := by
  have hrequest : SameAudios 3 (withRendering requested s)
      ((startAssembly polynomialDigest 1 { scope := .chapter, chapterIds := [3] }).evaluate
        (fun _ => none) (withRendering requested s)).2 :=
    Prog.evaluate_related (always_startAssembly sameAudios_of_plain _ _ _) _
  exact trans_of (SameAudios 3) (.of_eq rfl) (trans_of (SameAudios 3) hrequest (.of_eq rfl))

theorem assemblyHistory_assembledTwiceOver :
    AssemblyHistory polynomialDigest (SameAudios 3) 3 assembledTwiceOver := by
  have hstart : Db.ChapterAudiosOk rerenderedBook.chapterAudios :=
    Db.chapterAudio_accepts_iff.mp (by decide)
  have hfirst : AssemblyHistory polynomialDigest (SameAudios 3) 3 (requestedWith 6 6 rerenderedBook) :=
    .changed (.start hstart) (sameAudios_requestedWith 6 6 _)
  have hsecond := (hfirst.assembled (runs_assembledBy 100 _)).changed (sameAudios_requestedWith 16 16 _)
  exact hsecond.assembled (runs_assembledBy 102 _)

theorem computedManifest_assembledAgain :
    computedManifest polynomialDigest 3 assembledAgain.1 = some 6989 := by
  decide +kernel

theorem succeeded_assembledAgain : Succeeded assembledAgain.1 := by
  have h : ∃ x ∈ assembledAgain.1, MadeSuccess x := by decide +kernel
  exact h

/-- The current audio is still that of the second rendering: the first one is superseded. -/
theorem currentManifest_iff_assembledAgain :
    CurrentManifest 3 6989 assembledAgain.2.2 ↔
      NoneSuperseded 3 6989 (requestedWith 26 6 assembledTwiceOver) :=
  currentManifest_iff (refl_of (SameAudios 3)) (fun _ _ h => h)
    (assemblyHistory_assembledTwiceOver.changed (sameAudios_requestedWith 26 6 _))
    (runs_assembledBy 104 _) computedManifest_assembledAgain succeeded_assembledAgain

theorem not_forall_currentManifest :
    ¬ ∀ (computeManifestHash : List (Id × Hash) → Hash) (others : Store → Store → Prop)
        (chapterId : Id), (∀ s, others s s) → (∀ s s', others s s' → SameAudios chapterId s s') →
        ∀ s, AssemblyHistory computeManifestHash others chapterId s → ∀ d es r s' chunkManifestHash,
        (processAssembleChapterJob computeManifestHash chapterId d).Runs others s es r s' →
        computedManifest computeManifestHash chapterId es = some chunkManifestHash →
        Succeeded es → CurrentManifest chapterId chunkManifestHash s' := by
  intro hclaim
  have hcurrent := hclaim polynomialDigest (SameAudios 3) 3 (refl_of (SameAudios 3))
    (fun _ _ h => h) (requestedWith 26 6 assembledTwiceOver)
    (assemblyHistory_assembledTwiceOver.changed (sameAudios_requestedWith 26 6 _)) _ _ _ _ 6989
    (runs_assembledBy 104 _) computedManifest_assembledAgain succeeded_assembledAgain
  have hother : ¬ CurrentManifest 3 6989 assembledAgain.2.2 := by
    unfold CurrentManifest
    decide +kernel
  exact hother hcurrent

end AudioBook