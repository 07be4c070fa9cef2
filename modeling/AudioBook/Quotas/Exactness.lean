import AudioBook.Quotas.StorageBytes
import Mathlib.Tactic.Ring

/-!
# Exact Storage Counters

The counter of a month is exact as long as every object that was counted is subtracted once, from
the counter of the month that counted it. `Accounted` says when an event does so; the others lose
an object from a counter, or subtract it from another month's.

- `Balanced`: what holds of the rows, the objects and the counters in between.
- `storedSize_withoutObjects`: what the objects of some files contribute to each month.
- `balanced_step`: an accounted event keeps the balance.
-/

namespace AudioBook.Quotas

open Books (BookFileStatus)
open Concurrent

/-! ## Accounted Events -/

def Counted (key : ObjectKey) (s : StorageState) : Prop := key ∈ s.countedIn.map Prod.snd

instance (key : ObjectKey) (s : StorageState) : Decidable (Counted key s) :=
  inferInstanceAs (Decidable (_ ∈ _))

/-- A purge subtracts what it deletes: it comes to the end of its files and updates the counter, its
files were counted in this month, and their objects are deleted. -/
def SettlesFiles (bookId : Id) (unreachable : List ObjectKey) (ending : PurgeEnding)
    (s : StorageState) : Prop :=
  ending ∈ [.afterRows true false, .afterRows true true] ∧ ∀ file ∈ s.filesOf bookId,
    (s.period, file.storageKey) ∈ s.countedIn ∧ file.storageKey ∉ unreachable

instance (bookId : Id) (unreachable : List ObjectKey) (ending : PurgeEnding) (s : StorageState) :
    Decidable (SettlesFiles bookId unreachable ending s) :=
  inferInstanceAs (Decidable (_ ∧ _))

/-- The counters stay exact: an object that was counted is not replaced, an upload is admitted once,
and a purge does not come to the files, finds none, or subtracts what it deletes. -/
def Accounted : StorageEvent → StorageState → Prop
  | .upload sessionId _, s => ∀ session ∈ s.findSession sessionId, ¬ Counted session.storageKey s
  | .completeUploadSession sessionId _ _, s => ∀ session ∈ s.findSession sessionId,
      ¬ Counted session.storageKey s ∧
        ∀ file ∈ s.bookFiles, file.storageKey ≠ session.storageKey
  | .purgeBook bookId unreachable ending, s =>
      ending = .beforeFiles ∨ s.filesOf bookId = [] ∨ SettlesFiles bookId unreachable ending s
  | _, _ => True

instance : (l : StorageEvent) → (s : StorageState) → Decidable (Accounted l s)
  | .upload _ _, _ => inferInstanceAs (Decidable (∀ _ ∈ _, _))
  | .completeUploadSession _ _ _, _ => inferInstanceAs (Decidable (∀ _ ∈ _, _))
  | .purgeBook _ _ _, _ => inferInstanceAs (Decidable (_ ∨ _))
  | .newMonth, _ | .createBook _, _ | .createUploadSession _ _, _ | .storeArtifact _ _ _, _
  | .retentionSweep _ _ _, _ => isTrue trivial

/-! ## The Balance -/

/-- Rows, objects and counters agree. -/
structure Balanced (s : StorageState) : Prop where
  objects : (s.objects.map StoredObject.key).Nodup
  countedOnce : (s.countedIn.map Prod.snd).Nodup
  uploads : ∀ key, Counted key s → ∃ bookId sessionId, key = .upload bookId sessionId
  counters : ∀ c ∈ s.countedIn, (s.usedValue c.1).isSome
  files : (s.bookFiles.map BookFile.storageKey).Nodup
  ownFiles : ∀ file ∈ s.bookFiles, ∃ sessionId, file.storageKey = .upload file.bookId sessionId
  admitted : ∀ file ∈ s.bookFiles, file.status = .admitted
  sizes : ∀ file ∈ s.bookFiles, Counted file.storageKey s →
    ⟨file.storageKey, file.sizeBytes⟩ ∈ s.objects
  artifacts : ∀ row ∈ s.artifacts, ∃ bookId artifactId, row.storageKey = .artifact bookId artifactId
  exact : ∀ period, usage period s = storedSize period s

theorem balanced_empty : Balanced {} where
  objects := List.nodup_nil
  countedOnce := List.nodup_nil
  uploads _ h := absurd h List.not_mem_nil
  counters _ h := absurd h List.not_mem_nil
  files := List.nodup_nil
  ownFiles _ h := absurd h List.not_mem_nil
  admitted _ h := absurd h List.not_mem_nil
  sizes _ h := absurd h List.not_mem_nil
  artifacts _ h := absurd h List.not_mem_nil
  exact _ := rfl

theorem Balanced.exact' {s : StorageState} (h : Balanced s) : Exact s := by
  intro period
  refine ⟨?_, h.exact period⟩
  rw [h.exact period]
  exact Int.natCast_nonneg _

/-! ## Sizes -/

section sizes

variable {s : StorageState} {objects : List StoredObject} {key : ObjectKey} {sizeBytes period : ℕ}

theorem sum_filter_ne (hnodup : (objects.map StoredObject.key).Nodup)
    (hmem : ⟨key, sizeBytes⟩ ∈ objects) (q : StoredObject → Bool) :
    ((objects.filter q).map StoredObject.sizeBytes).sum =
      (((objects.filter fun object => decide (object.key ≠ key)).filter q).map
        StoredObject.sizeBytes).sum + if q ⟨key, sizeBytes⟩ then sizeBytes else 0 := by
  induction objects with
  | nil => exact absurd hmem List.not_mem_nil
  | cons object objects ih =>
    obtain ⟨hnew, hrest⟩ := List.nodup_cons.mp hnodup
    rcases List.mem_cons.mp hmem with rfl | htail
    · -- The object is the first one, and no other has its key.
      have hothers : (objects.filter fun object => decide (object.key ≠ key)) = objects := by
        refine List.filter_eq_self.mpr fun other hother => decide_eq_true fun heq => ?_
        have hkeys : other.key ∈ objects.map StoredObject.key := List.mem_map_of_mem hother
        exact hnew (heq ▸ hkeys)
      have hhead : ((⟨key, sizeBytes⟩ :: objects).filter fun object =>
          decide (object.key ≠ key)) = objects := by
        rw [List.filter_cons_of_neg (by simp), hothers]
      rw [hhead, List.filter_cons]
      split
      · rw [List.map_cons, List.sum_cons, Nat.add_comm]
      · rfl
    · have hne : object.key ≠ key := fun heq =>
        hnew (heq ▸ List.mem_map_of_mem (f := StoredObject.key) htail)
      have hkept : ((object :: objects).filter fun object => decide (object.key ≠ key)) =
          object :: objects.filter fun object => decide (object.key ≠ key) :=
        List.filter_cons_of_pos (by simpa using hne)
      rw [hkept, List.filter_cons, List.filter_cons]
      have hsum := ih hrest htail
      split
      · rw [List.map_cons, List.sum_cons, List.map_cons, List.sum_cons, hsum, Nat.add_assoc]
      · exact hsum

theorem withoutObjects_cons (keys : List ObjectKey) :
    s.withoutObjects (key :: keys) = (s.withoutObjects [key]).withoutObjects keys := by
  simp only [StorageState.withoutObjects, List.filter_filter]
  congr 1
  refine List.filter_congr fun object _ => ?_
  simp [Bool.and_comm]

theorem storedSize_withoutObject (hnodup : (s.objects.map StoredObject.key).Nodup)
    (hmem : ⟨key, sizeBytes⟩ ∈ s.objects) :
    storedSize period s = storedSize period (s.withoutObjects [key]) +
      if (period, key) ∈ s.countedIn then sizeBytes else 0 := by
  have hsum := sum_filter_ne hnodup hmem fun object => decide ((period, object.key) ∈ s.countedIn)
  simp only [decide_eq_true_eq] at hsum
  rw [storedSize, hsum, storedSize]
  simp only [StorageState.withoutObjects, List.mem_singleton]

theorem storedSize_of_uncounted {keys : List ObjectKey} (h : ∀ key ∈ keys, ¬ Counted key s) :
    storedSize period (s.withoutObjects keys) = storedSize period s := by
  simp only [storedSize, StorageState.withoutObjects, List.filter_filter]
  congr 2
  refine List.filter_congr fun object _ => ?_
  by_cases hcounted : (period, object.key) ∈ s.countedIn
  · have hkey : object.key ∉ keys := fun hkey =>
      h _ hkey (List.mem_map_of_mem (f := Prod.snd) hcounted)
    simp [hcounted, hkey]
  · simp [hcounted]

theorem nodup_withoutObjects (keys : List ObjectKey)
    (hnodup : (s.objects.map StoredObject.key).Nodup) :
    ((s.withoutObjects keys).objects.map StoredObject.key).Nodup :=
  hnodup.sublist (List.filter_sublist.map _)

theorem counted_iff (hcounted : (s.countedIn.map Prod.snd).Nodup)
    (hmem : (period, key) ∈ s.countedIn) (other : ℕ) :
    (other, key) ∈ s.countedIn ↔ other = period := by
  constructor
  · intro hother
    exact congrArg Prod.fst (List.inj_on_of_nodup_map hcounted hother hmem rfl)
  · rintro rfl
    exact hmem

theorem storedSize_withoutObjects {files : List BookFile} {month : ℕ}
    (hcounted : (s.countedIn.map Prod.snd).Nodup)
    (hobjects : (s.objects.map StoredObject.key).Nodup)
    (hfiles : (files.map BookFile.storageKey).Nodup)
    (hmonth : ∀ file ∈ files, (month, file.storageKey) ∈ s.countedIn)
    (hstored : ∀ file ∈ files, ⟨file.storageKey, file.sizeBytes⟩ ∈ s.objects) :
    storedSize period s = storedSize period (s.withoutObjects (files.map BookFile.storageKey)) +
      if period = month then (files.map BookFile.sizeBytes).sum else 0 := by
  induction files generalizing s with
  | nil =>
    have hnone : storedSize period (s.withoutObjects []) = storedSize period s :=
      storedSize_of_uncounted fun key hkey => absurd hkey List.not_mem_nil
    simp [hnone]
  | cons file files ih =>
    obtain ⟨hnew, hrest⟩ := List.nodup_cons.mp hfiles
    have hfirst : storedSize period s = storedSize period (s.withoutObjects [file.storageKey]) +
        if (period, file.storageKey) ∈ s.countedIn then file.sizeBytes else 0 :=
      storedSize_withoutObject hobjects (hstored file List.mem_cons_self)
    have hothers := ih (s := s.withoutObjects [file.storageKey]) hcounted
      (nodup_withoutObjects _ hobjects) hrest
      (fun other hother => hmonth other (List.mem_cons_of_mem _ hother)) fun other hother => by
        refine List.mem_filter.mpr ⟨hstored other (List.mem_cons_of_mem _ hother), ?_⟩
        have hne : other.storageKey ≠ file.storageKey := fun heq =>
          hnew (heq ▸ List.mem_map_of_mem hother)
        simpa using hne
    rw [List.map_cons, withoutObjects_cons, hfirst, hothers]
    simp only [counted_iff hcounted (hmonth file List.mem_cons_self)]
    split
    · rw [List.map_cons, List.sum_cons]
      omega
    · rfl

end sizes

/-! ## What the Events Do -/

section events

variable {s : StorageState} {key : ObjectKey}

theorem Balanced.withoutObjects (h : Balanced s) {keys : List ObjectKey}
    (hkeys : ∀ key ∈ keys, ¬ Counted key s) : Balanced (s.withoutObjects keys) where
  objects := nodup_withoutObjects keys h.objects
  countedOnce := h.countedOnce
  uploads := h.uploads
  counters := h.counters
  files := h.files
  ownFiles := h.ownFiles
  admitted := h.admitted
  sizes file hfile hcounted := by
    refine List.mem_filter.mpr ⟨h.sizes file hfile hcounted, decide_eq_true fun hkey => ?_⟩
    exact hkeys _ hkey hcounted
  artifacts := h.artifacts
  exact period := (h.exact period).trans (by rw [storedSize_of_uncounted hkeys])

theorem Balanced.put (h : Balanced s) {object : StoredObject} (hkey : ¬ Counted object.key s) :
    Balanced (s.put object) where
  objects := by
    have hkept : ((s.objects.filter fun other => decide (other.key ≠ object.key)).map
        StoredObject.key).Nodup := h.objects.sublist (List.filter_sublist.map _)
    rw [StorageState.put, List.map_append, List.nodup_append]
    refine ⟨hkept, List.nodup_singleton _, fun key hmem other hother heq => ?_⟩
    obtain ⟨kept, hold, rfl⟩ := List.mem_map.mp hmem
    rw [List.map_singleton, List.mem_singleton] at hother
    have hne : kept.key ≠ object.key := by simpa using (List.mem_filter.mp hold).2
    exact hne (heq.trans hother)
  countedOnce := h.countedOnce
  uploads := h.uploads
  counters := h.counters
  files := h.files
  ownFiles := h.ownFiles
  admitted := h.admitted
  sizes file hfile hcounted := by
    refine List.mem_append_left _ (List.mem_filter.mpr ⟨h.sizes file hfile hcounted, ?_⟩)
    exact decide_eq_true fun heq => hkey (heq ▸ hcounted)
  artifacts := h.artifacts
  exact period := by
    have hnew : (period, object.key) ∉ s.countedIn := fun hmem =>
      hkey (List.mem_map_of_mem (f := Prod.snd) hmem)
    have hkept : storedSize period (s.withoutObjects [object.key]) = storedSize period s :=
      storedSize_of_uncounted fun key hmem => by
        rw [List.mem_singleton.mp hmem]
        exact hkey
    refine (h.exact period).trans ?_
    have hothers : (s.withoutObjects [object.key]).objects =
        s.objects.filter fun other => decide (other.key ≠ object.key) :=
      List.filter_congr fun other _ => by simp
    have hput : storedSize period (s.put object) =
        ((((s.withoutObjects [object.key]).objects ++ [object]).filter fun object =>
          decide ((period, object.key) ∈ s.countedIn)).map StoredObject.sizeBytes).sum := by
      rw [hothers]
      rfl
    rw [hput, List.filter_append, List.filter_cons_of_neg (by simpa using hnew), List.filter_nil,
      List.append_nil, ← hkept]
    rfl

theorem usage_upsertCounter (create increment : ℤ) (period : ℕ) :
    usage period (s.upsertCounter create increment) =
      if period = s.period then
        (s.usedValue s.period).elim create fun value => value + increment
      else usage period s := by
  unfold usage StorageState.upsertCounter
  by_cases hperiod : period = s.period
  · simp [hperiod]
  · simp [hperiod]

theorem storedSize_countIn {sizeBytes period : ℕ} (hobjects : (s.objects.map StoredObject.key).Nodup)
    (hnew : ¬ Counted key s) (hobject : ⟨key, sizeBytes⟩ ∈ s.objects) :
    storedSize period (s.countIn key sizeBytes) =
      storedSize period s + if period = s.period then sizeBytes else 0 := by
  have hrest : ∀ object ∈ s.objects.filter fun object => decide (object.key ≠ key),
      decide ((period, object.key) ∈ (s.period, key) :: s.countedIn) =
        decide ((period, object.key) ∈ s.countedIn) := by
    intro object hmem
    have hne : object.key ≠ key := by simpa using (List.mem_filter.mp hmem).2
    simp [hne]
  have hout : (period, key) ∉ s.countedIn := fun hmem =>
    hnew (List.mem_map_of_mem (f := Prod.snd) hmem)
  have hafter := sum_filter_ne hobjects hobject fun object =>
    decide ((period, object.key) ∈ (s.period, key) :: s.countedIn)
  have hbefore := sum_filter_ne hobjects hobject fun object =>
    decide ((period, object.key) ∈ s.countedIn)
  rw [List.filter_congr hrest] at hafter
  simp only [decide_eq_true_eq, hout, if_false, Nat.add_zero] at hbefore
  simp only [decide_eq_true_eq, List.mem_cons, Prod.mk.injEq, and_true, hout, or_false] at hafter
  rw [storedSize, storedSize, hbefore, ← hafter]
  simp [StorageState.countIn, StorageState.recordUsage, StorageState.upsertCounter]

theorem Balanced.countIn (h : Balanced s) {file : BookFile} (hfile : file ∈ s.bookFiles)
    (hnew : ¬ Counted file.storageKey s)
    (hobject : ⟨file.storageKey, file.sizeBytes⟩ ∈ s.objects) :
    Balanced (s.countIn file.storageKey file.sizeBytes) where
  objects := h.objects
  countedOnce := List.nodup_cons.mpr ⟨hnew, h.countedOnce⟩
  uploads key hkey := by
    rcases List.mem_cons.mp hkey with rfl | hkey
    · obtain ⟨sessionId, heq⟩ := h.ownFiles file hfile
      exact ⟨file.bookId, sessionId, heq⟩
    · exact h.uploads key hkey
  counters c hc := by
    show ((Function.update s.usedValue s.period _) c.1).isSome
    by_cases hperiod : c.1 = s.period
    · simp [hperiod]
    · rw [Function.update_of_ne hperiod]
      rcases List.mem_cons.mp hc with rfl | hc
      · exact absurd rfl hperiod
      · exact h.counters c hc
  files := h.files
  ownFiles := h.ownFiles
  admitted := h.admitted
  sizes other hother hcounted := by
    rcases List.mem_cons.mp hcounted with heq | hcounted
    · have hsame : other = file := List.inj_on_of_nodup_map h.files hother hfile heq
      exact hsame ▸ hobject
    · exact h.sizes other hother hcounted
  artifacts := h.artifacts
  exact period := by
    rw [storedSize_countIn h.objects hnew hobject]
    show usage period (s.upsertCounter file.sizeBytes file.sizeBytes) = _
    rw [usage_upsertCounter]
    have hexact := h.exact period
    by_cases hperiod : period = s.period
    · subst hperiod
      rw [if_pos rfl, if_pos rfl]
      unfold usage at hexact
      cases hvalue : s.usedValue s.period with
      | none =>
        rw [hvalue] at hexact
        push_cast
        rw [← hexact]
        simp
      | some value =>
        rw [hvalue] at hexact
        push_cast
        rw [← hexact]
        simp
    · rw [if_neg hperiod, if_neg hperiod, hexact, Nat.add_zero]

/-! ## Purges -/

theorem Balanced.otherReference (h : Balanced s) {file : BookFile} (hfile : file ∈ s.bookFiles) :
    otherReference s file.storageKey file.bookId = false := by
  refine List.any_eq_false.mpr fun other hother => ?_
  rw [decide_eq_true_eq]
  rintro ⟨hkey, hbook⟩
  obtain ⟨sessionId, heq⟩ := h.ownFiles file hfile
  obtain ⟨sessionId', heq'⟩ := h.ownFiles other hother
  rw [heq, heq', ObjectKey.upload.injEq] at hkey
  exact hbook hkey.1

variable {bookId : Id}

theorem purgeFileObjects_eq {unreachable : List ObjectKey} {files : List BookFile}
    (hother : ∀ file ∈ files, otherReference s file.storageKey bookId = false)
    (hreached : ∀ file ∈ files, file.storageKey ∉ unreachable) :
    purgeFileObjects bookId unreachable files s =
      ((files.map BookFile.sizeBytes).sum, s.withoutObjects (files.map BookFile.storageKey)) := by
  induction files generalizing s with
  | nil =>
    have hnone : s.withoutObjects [] = s := by simp [StorageState.withoutObjects]
    rw [purgeFileObjects, List.map_nil, List.map_nil, List.sum_nil, hnone]
  | cons file files ih =>
    have hdelete : deleteObjects s unreachable [file.storageKey] =
        s.withoutObjects [file.storageKey] := by
      rw [deleteObjects, List.filter_cons_of_pos
        (by simpa using hreached file List.mem_cons_self), List.filter_nil]
    have hrest := ih (s := s.withoutObjects [file.storageKey])
      (fun other hmem => hother other (List.mem_cons_of_mem _ hmem))
      fun other hmem => hreached other (List.mem_cons_of_mem _ hmem)
    rw [purgeFileObjects, if_neg (by simp [hother file List.mem_cons_self]), hdelete, hrest,
      List.map_cons, List.sum_cons, List.map_cons,
      withoutObjects_cons (files.map BookFile.storageKey)]

theorem Balanced.not_counted_artifact (h : Balanced s) {row : Artifact} (hrow : row ∈ s.artifacts) :
    ¬ Counted row.storageKey s := by
  intro hcounted
  obtain ⟨bookId, artifactId, heq⟩ := h.artifacts row hrow
  obtain ⟨bookId', sessionId, heq'⟩ := h.uploads _ hcounted
  rw [heq] at heq'
  cases heq'

theorem Balanced.purgeArtifacts (h : Balanced s) (bookId : Id) (unreachable : List ObjectKey) :
    Balanced (purgeArtifacts bookId unreachable s) := by
  have hdeleted : Balanced (deleteObjects s unreachable
      ((s.artifacts.filter fun row => decide (row.bookId = bookId)).map Artifact.storageKey)) := by
    refine h.withoutObjects fun key hkey => ?_
    obtain ⟨row, hrow, rfl⟩ := List.mem_map.mp (List.mem_filter.mp hkey).1
    exact h.not_counted_artifact (List.mem_filter.mp hrow).1
  exact { hdeleted with
    artifacts := fun row hrow => h.artifacts row (List.mem_filter.mp hrow).1 }

theorem Balanced.of_rows (h : Balanced s) {s' : StorageState} (hobjects : s'.objects = s.objects)
    (hcounted : s'.countedIn = s.countedIn) (hused : s'.usedValue = s.usedValue)
    (hfiles : s'.bookFiles.Sublist s.bookFiles) (hartifacts : s'.artifacts = s.artifacts) :
    Balanced s' where
  objects := hobjects ▸ h.objects
  countedOnce := hcounted ▸ h.countedOnce
  uploads key hkey := h.uploads key (by rw [Counted, ← hcounted]; exact hkey)
  counters c hc := by
    rw [hused]
    exact h.counters c (hcounted ▸ hc)
  files := h.files.sublist (hfiles.map _)
  ownFiles file hfile := h.ownFiles file (hfiles.subset hfile)
  admitted file hfile := h.admitted file (hfiles.subset hfile)
  sizes file hfile hkey := by
    rw [hobjects]
    exact h.sizes file (hfiles.subset hfile) (by rw [Counted, ← hcounted]; exact hkey)
  artifacts row hrow := h.artifacts row (hartifacts ▸ hrow)
  exact period := by
    rw [usage, hused, storedSize, hobjects, hcounted]
    exact h.exact period

/-- The store after the objects and the rows of a book's files were deleted. -/
def withoutFiles (bookId : Id) (s : StorageState) : StorageState :=
  { s.withoutObjects ((s.filesOf bookId).map BookFile.storageKey) with
    bookFiles := s.bookFiles.filter fun file => decide (file.bookId ≠ bookId) }

def freedBytes (bookId : Id) (s : StorageState) : ℕ :=
  ((s.filesOf bookId).map BookFile.sizeBytes).sum

theorem Balanced.storedSize_withoutFiles (h : Balanced s)
    (hmonth : ∀ file ∈ s.filesOf bookId, (s.period, file.storageKey) ∈ s.countedIn) (period : ℕ) :
    storedSize period s = storedSize period (withoutFiles bookId s) +
      if period = s.period then freedBytes bookId s else 0 := by
  refine storedSize_withoutObjects h.countedOnce h.objects
    (h.files.sublist (List.filter_sublist.map _)) hmonth fun file hfile => ?_
  exact h.sizes file (List.mem_filter.mp hfile).1
    (List.mem_map_of_mem (f := Prod.snd) (hmonth file hfile))

theorem Balanced.withoutFiles (h : Balanced s) {usedValue : ℕ → Option ℤ}
    (hcounters : ∀ c ∈ s.countedIn, (usedValue c.1).isSome)
    (hexact : ∀ period, (usedValue period).getD 0 = storedSize period (withoutFiles bookId s)) :
    Balanced { Quotas.withoutFiles bookId s with usedValue := usedValue } where
  objects := nodup_withoutObjects _ h.objects
  countedOnce := h.countedOnce
  uploads := h.uploads
  counters := hcounters
  files := h.files.sublist (List.filter_sublist.map _)
  ownFiles file hfile := h.ownFiles file (List.mem_filter.mp hfile).1
  admitted file hfile := h.admitted file (List.mem_filter.mp hfile).1
  sizes file hfile hcounted := by
    obtain ⟨hfile, hother⟩ := List.mem_filter.mp hfile
    refine List.mem_filter.mpr ⟨h.sizes file hfile hcounted, decide_eq_true fun hkey => ?_⟩
    obtain ⟨own, hown, heq⟩ := List.mem_map.mp hkey
    obtain ⟨hown, hbook⟩ := List.mem_filter.mp hown
    have hsame : own = file := List.inj_on_of_nodup_map h.files hown hfile heq
    exact of_decide_eq_true hother (hsame ▸ of_decide_eq_true hbook)
  artifacts := h.artifacts
  exact := hexact

theorem Balanced.release (h : Balanced s)
    (hmonth : ∀ file ∈ s.filesOf bookId, (s.period, file.storageKey) ∈ s.countedIn) :
    Balanced (if 0 < freedBytes bookId s then
      (Quotas.withoutFiles bookId s).recordStorageBytesDelta (-freedBytes bookId s)
      else Quotas.withoutFiles bookId s) := by
  have hsize := h.storedSize_withoutFiles hmonth
  split
  next hfree =>
    -- A file was counted in this month, so the month has a counter.
    obtain ⟨file, hfile⟩ : ∃ file, file ∈ s.filesOf bookId := by
      refine List.exists_mem_of_ne_nil _ fun hnil => ?_
      rw [freedBytes, hnil] at hfree
      exact absurd hfree (by simp)
    obtain ⟨value, hvalue⟩ := Option.isSome_iff_exists.mp (h.counters _ (hmonth file hfile))
    refine h.withoutFiles (fun c hc => ?_) fun period => ?_
    · show ((Function.update s.usedValue s.period _) c.1).isSome
      by_cases hperiod : c.1 = s.period
      · simp [hperiod]
      · rw [Function.update_of_ne hperiod]
        exact h.counters c hc
    · have hexact := h.exact period
      show usage period ((Quotas.withoutFiles bookId s).upsertCounter _ _) = _
      rw [usage_upsertCounter]
      show (if period = s.period then (s.usedValue s.period).elim _ fun value => value + _
        else usage period s) = _
      by_cases hperiod : period = s.period
      · subst hperiod
        rw [if_pos rfl, hvalue, Option.elim_some]
        rw [usage, hvalue, Option.getD_some, hsize, if_pos rfl] at hexact
        rw [hexact]
        push_cast
        ring
      · rw [if_neg hperiod, hexact, hsize, if_neg hperiod, Nat.add_zero]
  next hfree =>
    refine h.withoutFiles h.counters fun period => ?_
    have hzero : freedBytes bookId s = 0 := by omega
    have hexact := h.exact period
    rw [usage, hsize, hzero, ite_self, Nat.add_zero] at hexact
    exact hexact

theorem Balanced.purgeBookFiles (h : Balanced s) {unreachable : List ObjectKey}
    {ending : PurgeEnding}
    (haccounted : ending = .beforeFiles ∨ s.filesOf bookId = [] ∨ SettlesFiles bookId unreachable ending s) :
    Balanced (purgeBookFiles bookId unreachable ending s) := by
  rcases haccounted with rfl | hnone | ⟨hending, hfiles⟩
  · exact h
  · -- There is nothing to delete, to free or to count.
    have hpurged : purgeFileObjects bookId unreachable (s.filesOf bookId) s = (0, s) := by
      rw [hnone, purgeFileObjects]
    unfold Quotas.purgeBookFiles
    rw [hpurged]
    cases ending with
    | beforeFiles => exact h
    | beforeRows => exact h
    | afterRows recorded finished =>
      simp only [Nat.lt_irrefl, false_and, if_false]
      split
      · exact h.of_rows rfl rfl rfl List.filter_sublist rfl
      · exact h.of_rows rfl rfl rfl List.filter_sublist rfl
  · have hpurged : purgeFileObjects bookId unreachable (s.filesOf bookId) s =
        (freedBytes bookId s, s.withoutObjects ((s.filesOf bookId).map BookFile.storageKey)) := by
      refine purgeFileObjects_eq (fun file hfile => ?_) fun file hfile => (hfiles file hfile).2
      obtain ⟨hmem, hbook⟩ := List.mem_filter.mp hfile
      have hbook : file.bookId = bookId := of_decide_eq_true hbook
      rw [← hbook]
      exact h.otherReference hmem
    have hreleased := h.release fun file hfile => (hfiles file hfile).1
    unfold Quotas.purgeBookFiles
    rw [hpurged]
    simp only [List.mem_cons, List.not_mem_nil, or_false] at hending
    rcases hending with rfl | rfl
    · simp only [and_true, Bool.false_eq_true, if_false]
      exact hreleased
    · simp only [and_true, if_true]
      exact hreleased.of_rows rfl rfl rfl (List.Sublist.refl _) rfl

/-! ## Uploads, Artifacts and Sweeps -/

theorem Balanced.addFile (h : Balanced s) {session : UploadSession} {object : StoredObject}
    (hnew : ∀ file ∈ s.bookFiles, file.storageKey ≠ session.storageKey)
    (hcounted : ¬ Counted session.storageKey s) : Balanced (s.addFile session object) where
  objects := h.objects
  countedOnce := h.countedOnce
  uploads := h.uploads
  counters := h.counters
  files := by
    rw [StorageState.addFile, List.map_append, List.nodup_append]
    refine ⟨h.files, List.nodup_singleton _, fun key hkey other hother heq => ?_⟩
    obtain ⟨file, hfile, rfl⟩ := List.mem_map.mp hkey
    exact hnew file hfile (heq.trans (List.mem_singleton.mp hother))
  ownFiles file hfile := by
    rcases List.mem_append.mp hfile with hfile | hfile
    · exact h.ownFiles file hfile
    · rw [List.mem_singleton.mp hfile]
      exact ⟨session.id, rfl⟩
  admitted file hfile := by
    rcases List.mem_append.mp hfile with hfile | hfile
    · exact h.admitted file hfile
    · rw [List.mem_singleton.mp hfile]
  sizes file hfile hkey := by
    rcases List.mem_append.mp hfile with hfile | hfile
    · exact h.sizes file hfile hkey
    · rw [List.mem_singleton.mp hfile] at hkey
      exact absurd hkey hcounted
  artifacts := h.artifacts
  exact := h.exact

theorem Balanced.completeUploadSession (h : Balanced s) {sessionId : Id}
    {recorded acknowledged : Bool} {s' : StorageState}
    (haccounted : Accounted (.completeUploadSession sessionId recorded acknowledged) s)
    (hstep : completeUploadSession sessionId recorded acknowledged s = some s') : Balanced s' := by
  unfold Quotas.completeUploadSession at hstep
  split at hstep
  · cases hstep
  next session hsession =>
  obtain ⟨hcounted, hnew⟩ := haccounted session hsession
  split at hstep
  · cases hstep
  split at hstep
  · cases hstep
  next object hobject =>
  have hkey : object.key = session.storageKey := by simpa using List.find?_some hobject
  have hadded : Balanced (s.addFile session object) := h.addFile hnew hcounted
  have hcount : Balanced (if recorded then
      (s.addFile session object).countIn session.storageKey object.sizeBytes
      else s.addFile session object) := by
    split
    · have hfile : (⟨session.bookId, session.storageKey, object.sizeBytes, .admitted, false⟩ :
          BookFile) ∈ (s.addFile session object).bookFiles :=
        List.mem_append_right _ (List.mem_singleton_self _)
      refine hadded.countIn hfile hcounted ?_
      show ⟨session.storageKey, object.sizeBytes⟩ ∈ s.objects
      rw [← hkey]
      exact List.mem_of_find?_eq_some hobject
    · exact hadded
  cases hstep
  split
  · exact hcount.of_rows rfl rfl rfl (List.Sublist.refl _) rfl
  · exact hcount

theorem Balanced.storeArtifact (h : Balanced s) (bookId artifactId : Id) (sizeBytes : ℕ) :
    Balanced { s.put ⟨.artifact bookId artifactId, sizeBytes⟩ with
      artifacts := s.artifacts ++ [⟨bookId, .artifact bookId artifactId⟩] } := by
  have hput : Balanced (s.put ⟨.artifact bookId artifactId, sizeBytes⟩) := by
    refine h.put fun hcounted => ?_
    obtain ⟨bookId', sessionId, heq⟩ := h.uploads _ hcounted
    cases heq
  refine { hput with artifacts := fun row hrow => ?_ }
  rcases List.mem_append.mp hrow with hrow | hrow
  · exact h.artifacts row hrow
  · rw [List.mem_singleton.mp hrow]
    exact ⟨bookId, artifactId, rfl⟩

theorem Balanced.expireOrphanedFiles_eq (h : Balanced s) (old unreachable : List ObjectKey) :
    expireOrphanedFiles old unreachable s = s := by
  have hnone : ∀ file ∈ s.bookFiles,
      decide (file.status = .rejected ∧ file.expired = false ∧ file.storageKey ∈ old) = false := by
    intro file hfile
    simp [h.admitted file hfile]
  have hfiltered : (s.bookFiles.filter fun file => decide
      (file.status = .rejected ∧ file.expired = false ∧ file.storageKey ∈ old)) = [] :=
    List.filter_eq_nil_iff.mpr fun file hfile => by simp [h.admitted file hfile]
  have hmap : (s.bookFiles.map fun file =>
      if decide (file.status = .rejected ∧ file.expired = false ∧ file.storageKey ∈ old) then
        { file with expired := true } else file) = s.bookFiles := by
    refine (List.map_congr_left fun file hfile => ?_).trans (List.map_id _)
    rw [hnone file hfile]
    rfl
  have hobjects : deleteObjects s unreachable [] = s := by
    simp [deleteObjects, StorageState.withoutObjects]
  simp only [expireOrphanedFiles, hfiltered, List.map_nil, hobjects, hmap]

theorem Balanced.retentionSweep (h : Balanced s) (old superseded unreachable : List ObjectKey) :
    Balanced (runRetentionSweep old superseded unreachable s) := by
  unfold runRetentionSweep
  rw [h.expireOrphanedFiles_eq]
  refine h.withoutObjects fun key hkey => ?_
  obtain ⟨row, hrow, rfl⟩ := List.mem_map.mp (List.mem_filter.mp hkey).1
  exact h.not_counted_artifact (List.mem_filter.mp hrow).1

end events

/-! ## Runs -/

theorem balanced_step (l : StorageEvent) (s s' : StorageState) (h : Balanced s)
    (haccounted : Accounted l s) (hstep : storageMachine.step l s = some s') : Balanced s' := by
  cases l with
  | newMonth =>
    cases hstep
    exact h.of_rows rfl rfl rfl (List.Sublist.refl _) rfl
  | createBook bookId =>
    simp only [storageMachine, StorageEvent.step, Option.ite_none_left_eq_some,
      Option.some.injEq] at hstep
    obtain ⟨-, rfl⟩ := hstep
    exact h.of_rows rfl rfl rfl (List.Sublist.refl _) rfl
  | createUploadSession bookId sessionId =>
    simp only [storageMachine, StorageEvent.step, Option.ite_none_left_eq_some,
      Option.some.injEq] at hstep
    obtain ⟨-, rfl⟩ := hstep
    exact h.of_rows rfl rfl rfl (List.Sublist.refl _) rfl
  | upload sessionId sizeBytes =>
    simp only [storageMachine, StorageEvent.step] at hstep
    split at hstep
    · cases hstep
    next session hsession =>
    cases hstep
    exact h.put (haccounted session hsession)
  | completeUploadSession sessionId recorded acknowledged =>
    exact h.completeUploadSession haccounted hstep
  | storeArtifact bookId artifactId sizeBytes =>
    cases hstep
    exact h.storeArtifact bookId artifactId sizeBytes
  | purgeBook bookId unreachable ending =>
    cases hstep
    exact (h.purgeArtifacts bookId unreachable).purgeBookFiles haccounted
  | retentionSweep old superseded unreachable =>
    cases hstep
    exact h.retentionSweep old superseded unreachable

/-- In every run of accounted events, the counter of every month is exact in every state. -/
theorem exact_of_accounted {s : StorageState} (hs : storageMachine.Reachable Accounted s) :
    Exact s :=
  (hs.invariant (fun s hs => by rw [hs]; exact balanced_empty) balanced_step).exact'

/-! ## Two Books -/

/-- Two books, each with an upload of 10 and of 5 bytes, the second one a month after the first if
`later`. -/
def twoUploads (later : Bool) : List StorageEvent :=
  [.createBook 1, .createBook 2, .createUploadSession 1 10, .upload 10 10,
    .completeUploadSession 10 true true] ++ (if later then [.newMonth] else []) ++
    [.createUploadSession 2 20, .upload 20 5, .completeUploadSession 20 true true]

/-- The first book is purged, and nothing fails. -/
def firstPurged : StorageEvent := .purgeBook 1 [] (.afterRows true true)

/-- The usage of the first two months. -/
def usages (s : StorageState) : ℤ × ℤ := (usage 0 s, usage 1 s)

/-- Purged in the month of its upload, the first book leaves the counter with the second one's. -/
theorem exact_twoUploads : ∃ s, storageMachine.Reachable Accounted s ∧ usages s = (5, 0) ∧ Exact s := by
  have hreplay : (storageMachine.replay Accounted (twoUploads false ++ [firstPurged]) {}).map usages =
      some (5, 0) := by decide +kernel
  obtain ⟨s, hrun, husages⟩ := Machine.exists_run_of_replay hreplay
  have hreach : storageMachine.Reachable Accounted s := ⟨{}, rfl, hrun⟩
  exact ⟨s, hreach, husages, exact_of_accounted hreach⟩

/-- It is not so that the counters are always exact: purged a month later, the first book makes the
counter of that month negative. -/
theorem not_forall_exact :
    ¬ ∀ s, storageMachine.Reachable Machine.anyEvent s → Exact s := by
  intro h
  have hreplay : (storageMachine.replay Machine.anyEvent (twoUploads true ++ [firstPurged]) {}).map
      usages = some (10, -5) := by decide +kernel
  obtain ⟨s, hrun, husages⟩ := Machine.exists_run_of_replay hreplay
  have hnonneg : 0 ≤ usage 1 s := (h s ⟨{}, rfl, hrun⟩ 1).1
  rw [(Prod.mk.inj husages).2] at hnonneg
  exact absurd hnonneg (by decide)

end AudioBook.Quotas
