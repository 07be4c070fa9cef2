import AudioBook.Director.Handlers
import AudioBook.Director.Partition

/-!
# The Plan of a Script

What the chunks of a run are to be is fixed before the run starts: the text of its chapters, cut by
the chunker and numbered. `plan` is that list, and `Complete` says what a script has to be for its
chunks to speak the chapters: `complete_plan` is that the plan is complete. What the handlers store
is compared with the plan elsewhere.
-/

namespace AudioBook

open Intervals

/-- What the Director never decides about a chunk: its numbers and the text it speaks. -/
structure PlannedChunk where
  chapterId : Id
  sequenceIndex : ℕ
  chapterSequenceIndex : ℕ
  source : ChunkSource
  deriving DecidableEq, Repr

def AudioScriptChunk.planned (chunk : AudioScriptChunk) : PlannedChunk where
  chapterId := chunk.chapterId
  sequenceIndex := chunk.sequenceIndex
  chapterSequenceIndex := chunk.chapterSequenceIndex
  source := chunk.source

/-! ## The Plan -/

def spanSource (paragraphId : Id) (span : ChunkSpan) : ChunkSource :=
  ⟨paragraphId, span.charStart, span.charEnd⟩

def planSpans (chapterId : Id) : ℕ → ℕ → List (Id × ChunkSpan) → List PlannedChunk
  | _, _, [] => []
  | sequenceIndex, chapterSequenceIndex, (paragraphId, span) :: spans =>
      { chapterId := chapterId
        sequenceIndex := sequenceIndex
        chapterSequenceIndex := chapterSequenceIndex
        source := spanSource paragraphId span } ::
          planSpans chapterId (sequenceIndex + 1) (chapterSequenceIndex + 1) spans

/-- The chunks of a chapter whose first one has number `n`. -/
def planChapter (s : Store) (n : ℕ) (chapterId : Id) : List PlannedChunk :=
  planSpans chapterId n 0 (chapterSpans (loadParagraphsForChapter chapterId s))

/-- The chunks of chapters whose first one has number `n`. -/
def planFrom (s : Store) : ℕ → List Id → List PlannedChunk
  | _, [] => []
  | n, chapterId :: chapterIds =>
      planChapter s n chapterId ++
        planFrom s (n + (planChapter s n chapterId).length) chapterIds

def plan (s : Store) (chapterIds : List Id) : List PlannedChunk := planFrom s 0 chapterIds

section plan

variable {s s' : Store} {chapterId : Id} {chapterIds chapterIds' : List Id} {n k : ℕ}
  {spans : List (Id × ChunkSpan)}

@[simp]
theorem planSpans_length : (planSpans chapterId n k spans).length = spans.length := by
  induction spans generalizing n k with
  | nil => rfl
  | cons span spans ih => simp [planSpans, ih]

theorem planSpans_sequenceIndex :
    (planSpans chapterId n k spans).map PlannedChunk.sequenceIndex
      = List.range' n spans.length := by
  induction spans generalizing n k with
  | nil => rfl
  | cons span spans ih => simp [planSpans, ih, List.range'_succ]

theorem planSpans_chapterSequenceIndex :
    (planSpans chapterId n k spans).map PlannedChunk.chapterSequenceIndex
      = List.range' k spans.length := by
  induction spans generalizing n k with
  | nil => rfl
  | cons span spans ih => simp [planSpans, ih, List.range'_succ]

theorem planSpans_source :
    (planSpans chapterId n k spans).map PlannedChunk.source
      = spans.map fun span => spanSource span.1 span.2 := by
  induction spans generalizing n k with
  | nil => rfl
  | cons span spans ih => simp [planSpans, ih]

variable {chunk : PlannedChunk}

theorem sequenceIndex_of_mem_planSpans (h : chunk ∈ planSpans chapterId n k spans) :
    chunk.chapterId = chapterId ∧
      chunk.sequenceIndex + k = n + chunk.chapterSequenceIndex := by
  induction spans generalizing n k with
  | nil => cases h
  | cons span spans ih =>
      rcases List.mem_cons.mp h with rfl | h
      · exact ⟨rfl, rfl⟩
      · obtain ⟨hchapter, hstep⟩ := ih h
        exact ⟨hchapter, by omega⟩

theorem of_mem_planChapter (h : chunk ∈ planChapter s n chapterId) :
    chunk.chapterId = chapterId ∧ chunk.sequenceIndex = n + chunk.chapterSequenceIndex :=
  sequenceIndex_of_mem_planSpans h

theorem planFrom_append :
    planFrom s n (chapterIds ++ chapterIds')
      = planFrom s n chapterIds
        ++ planFrom s (n + (planFrom s n chapterIds).length) chapterIds' := by
  induction chapterIds generalizing n with
  | nil => simp [planFrom]
  | cons chapterId chapterIds ih =>
      rw [List.cons_append, planFrom, planFrom, ih, List.append_assoc, List.length_append,
        Nat.add_assoc]

theorem plan_concat :
    plan s (chapterIds ++ [chapterId])
      = plan s chapterIds ++ planChapter s (plan s chapterIds).length chapterId := by
  unfold plan
  rw [planFrom_append, planFrom, planFrom, List.append_nil, Nat.zero_add]

theorem loadParagraphsForChapter_congr (h : s'.paragraphs = s.paragraphs) :
    loadParagraphsForChapter chapterId s' = loadParagraphsForChapter chapterId s := by
  unfold loadParagraphsForChapter
  rw [h]

theorem planFrom_congr (h : s'.paragraphs = s.paragraphs) :
    planFrom s' n chapterIds = planFrom s n chapterIds := by
  induction chapterIds generalizing n with
  | nil => rfl
  | cons chapterId chapterIds ih =>
      unfold planFrom planChapter
      rw [loadParagraphsForChapter_congr h, ih]

theorem plan_congr (h : s'.paragraphs = s.paragraphs) : plan s' chapterIds = plan s chapterIds :=
  planFrom_congr h

theorem planFrom_sequenceIndex :
    (planFrom s n chapterIds).map PlannedChunk.sequenceIndex
      = List.range' n (planFrom s n chapterIds).length := by
  induction chapterIds generalizing n with
  | nil => rfl
  | cons chapterId chapterIds ih =>
      rw [planFrom, List.map_append, ih, List.length_append, planChapter, planSpans_sequenceIndex,
        planSpans_length, List.range'_append_1]

theorem plan_sequenceIndex :
    (plan s chapterIds).map PlannedChunk.sequenceIndex
      = List.range (plan s chapterIds).length := by
  rw [List.range_eq_range']
  exact planFrom_sequenceIndex

def paragraphSources (p : Paragraph) : List ChunkSource :=
  (chunkParagraph p.text defaultMaxChars).map (spanSource p.id)

theorem planFrom_source :
    (planFrom s n chapterIds).map PlannedChunk.source
      = (chapterIds.flatMap fun chapterId => loadParagraphsForChapter chapterId s).flatMap
          paragraphSources := by
  induction chapterIds generalizing n with
  | nil => rfl
  | cons chapterId chapterIds ih =>
      rw [planFrom, List.map_append, ih, List.flatMap_cons, List.flatMap_append, planChapter,
        planSpans_source, chapterSpans, List.map_flatMap]
      congr 1
      refine List.flatMap_congr fun p _ => ?_
      rw [List.map_map]
      rfl

theorem chapterId_mem_of_mem_planFrom (h : chunk ∈ planFrom s n chapterIds) :
    chunk.chapterId ∈ chapterIds := by
  induction chapterIds generalizing n with
  | nil => cases h
  | cons chapterId chapterIds ih =>
      rcases List.mem_append.mp h with h | h
      · rw [(of_mem_planChapter h).1]
        exact List.mem_cons_self
      · exact List.mem_cons_of_mem _ (ih h)

theorem exists_filter_planFrom (hnodup : chapterIds.Nodup) (hmem : chapterId ∈ chapterIds) :
    ∃ m, ((planFrom s n chapterIds).filter fun chunk => decide (chunk.chapterId = chapterId))
      = planChapter s m chapterId := by
  induction chapterIds generalizing n with
  | nil => cases hmem
  | cons first chapterIds ih =>
      obtain ⟨hfirst, hnodup⟩ := List.nodup_cons.mp hnodup
      rw [planFrom, List.filter_append]
      by_cases heq : first = chapterId
      · subst heq
        refine ⟨n, ?_⟩
        have hown : ((planChapter s n first).filter fun chunk =>
            decide (chunk.chapterId = first)) = planChapter s n first :=
          List.filter_eq_self.mpr fun chunk h => decide_eq_true (of_mem_planChapter h).1
        -- the other chapters are different ones
        have hothers : ((planFrom s (n + (planChapter s n first).length) chapterIds).filter
            fun chunk => decide (chunk.chapterId = first)) = [] :=
          List.filter_eq_nil_iff.mpr fun chunk h hchapter =>
            hfirst (of_decide_eq_true hchapter ▸ chapterId_mem_of_mem_planFrom h)
        rw [hown, hothers, List.append_nil]
      · have hmem' : chapterId ∈ chapterIds :=
          (List.mem_cons.mp hmem).resolve_left fun h => heq h.symm
        obtain ⟨m, hm⟩ := ih hnodup hmem' (n := n + (planChapter s n first).length)
        have hfirst : ((planChapter s n first).filter fun chunk =>
            decide (chunk.chapterId = chapterId)) = [] :=
          List.filter_eq_nil_iff.mpr fun chunk h hchapter =>
            heq ((of_mem_planChapter h).1.symm.trans (of_decide_eq_true hchapter))
        refine ⟨m, ?_⟩
        rw [hfirst, List.nil_append, hm]

theorem exists_mem_planChapter (hnodup : chapterIds.Nodup) (hmem : chapterId ∈ chapterIds) :
    ∃ m, ∀ chunk ∈ planFrom s n chapterIds, chunk.chapterId = chapterId →
      chunk ∈ planChapter s m chapterId := by
  obtain ⟨m, hm⟩ := exists_filter_planFrom (s := s) (n := n) hnodup hmem
  refine ⟨m, fun chunk hchunk hchapter => ?_⟩
  rw [← hm]
  exact List.mem_filter.mpr ⟨hchunk, decide_eq_true hchapter⟩

theorem exists_paragraph_of_mem_planChapter (h : chunk ∈ planChapter s n chapterId) :
    ∃ p ∈ loadParagraphsForChapter chapterId s, p.id = chunk.source.paragraphId := by
  have hsource : chunk.source ∈ (planChapter s n chapterId).map PlannedChunk.source :=
    List.mem_map_of_mem h
  rw [planChapter, planSpans_source, chapterSpans, List.map_flatMap] at hsource
  obtain ⟨p, hp, hsource⟩ := List.mem_flatMap.mp hsource
  rw [List.map_map] at hsource
  obtain ⟨span, -, heq⟩ := List.mem_map.mp hsource
  exact ⟨p, hp, heq ▸ rfl⟩

end plan

/-! ## Completeness -/

/-- One part of the text ends before another one starts, in the order of the book. -/
def Precedes (s : Store) (source later : ChunkSource) : Prop :=
  (∃ p ∈ s.paragraphs, ∃ q ∈ s.paragraphs, p.id = source.paragraphId ∧ q.id = later.paragraphId ∧
    p.spinePosition < q.spinePosition) ∨
  (source.paragraphId = later.paragraphId ∧ source.paragraphCharEnd ≤ later.paragraphCharStart)

/-- The chunks speak the text of the chapters, and are numbered as they speak it. -/
structure Complete (s : Store) (chapterIds : List Id) (chunks : List PlannedChunk) : Prop where
  /-- Every character of the chapters' paragraphs is spoken once, and nothing else is spoken. -/
  covers : CoversExactly (chapterIds.flatMap fun chapterId => loadParagraphsForChapter chapterId s)
    (chunks.map PlannedChunk.source)
  /-- A chunk is filed under the chapter that it speaks. -/
  chapter : ∀ chunk ∈ chunks, chunk.chapterId ∈ chapterIds ∧
    ∃ p ∈ loadParagraphsForChapter chunk.chapterId s, p.id = chunk.source.paragraphId
  /-- `sequence_index` takes exactly the values from `0` on. -/
  sequence : (chunks.map PlannedChunk.sequenceIndex).Perm (List.range chunks.length)
  spine : ∀ chunk ∈ chunks, ∀ later ∈ chunks, chunk.sequenceIndex < later.sequenceIndex →
    Precedes s chunk.source later.source
  /-- In each chapter `chapter_sequence_index` takes exactly the values from `0` on. -/
  chapterSequence : ∀ chapterId ∈ chapterIds,
    ((chunks.filter fun chunk => decide (chunk.chapterId = chapterId)).map
        PlannedChunk.chapterSequenceIndex).Perm
      (List.range (chunks.countP fun chunk => decide (chunk.chapterId = chapterId)))
  /-- In each chapter the two numbers count in step. -/
  inStep : ∀ chunk ∈ chunks, ∀ other ∈ chunks, chunk.chapterId = other.chapterId →
    chunk.sequenceIndex + other.chapterSequenceIndex
      = other.sequenceIndex + chunk.chapterSequenceIndex

/-- The text of the books as ingestion stores it: the numbers of chapters and paragraphs are
distinct, and spine positions follow them. -/
structure SpineOrdered (s : Store) : Prop where
  chapterIds : (s.chapters.map Chapter.id).Nodup
  chapterOrder : (s.chapters.map fun c => (c.bookVersionId, c.orderIndex)).Nodup
  paragraphIds : (s.paragraphs.map Paragraph.id).Nodup
  paragraphOrder : (s.paragraphs.map fun p => (p.chapterId, p.orderIndex)).Nodup
  chapters : ∀ c ∈ s.chapters, ∀ c' ∈ s.chapters, c.bookVersionId = c'.bookVersionId →
    c.orderIndex < c'.orderIndex → ∀ p ∈ s.paragraphs, ∀ p' ∈ s.paragraphs,
      p.chapterId = c.id → p'.chapterId = c'.id → p.spinePosition < p'.spinePosition
  paragraphs : ∀ p ∈ s.paragraphs, ∀ p' ∈ s.paragraphs, p.chapterId = p'.chapterId →
    p.orderIndex < p'.orderIndex → p.spinePosition < p'.spinePosition

section complete

variable {s : Store} {chapterId : Id}

theorem mem_loadParagraphsForChapter {p : Paragraph} :
    p ∈ loadParagraphsForChapter chapterId s ↔ p ∈ s.paragraphs ∧ p.chapterId = chapterId := by
  unfold loadParagraphsForChapter
  rw [List.mem_insertionSort, List.mem_filter, decide_eq_true_eq]

theorem loadParagraphsForChapter_pairwise (h : SpineOrdered s) (chapterId : Id) :
    (loadParagraphsForChapter chapterId s).Pairwise fun p q =>
      p.spinePosition < q.spinePosition := by
  have hperm : (loadParagraphsForChapter chapterId s).Perm
      (s.paragraphs.filter fun p => decide (p.chapterId = chapterId)) :=
    List.perm_insertionSort _ _
  have hle : (loadParagraphsForChapter chapterId s).Pairwise fun p q => p.orderIndex ≤ q.orderIndex :=
    have : IsTrans Paragraph fun p q => p.orderIndex ≤ q.orderIndex := ⟨fun _ _ _ => le_trans⟩
    have : Std.Total fun p q : Paragraph => p.orderIndex ≤ q.orderIndex :=
      ⟨fun p q => le_total p.orderIndex q.orderIndex⟩
    List.pairwise_insertionSort _ _
  -- two paragraphs of the chapter have different numbers
  have hne : (loadParagraphsForChapter chapterId s).Pairwise fun p q =>
      (p.chapterId, p.orderIndex) ≠ (q.chapterId, q.orderIndex) := by
    have hfilter : ((s.paragraphs.filter fun p => decide (p.chapterId = chapterId)).map fun p =>
        (p.chapterId, p.orderIndex)).Nodup :=
      h.paragraphOrder.sublist (List.filter_sublist.map _)
    exact List.pairwise_map.mp ((hperm.map _).nodup_iff.mpr hfilter)
  refine (hle.and hne).imp_of_mem fun {p q} hp hq hpq => ?_
  obtain ⟨hpmem, hpchapter⟩ := mem_loadParagraphsForChapter.mp hp
  obtain ⟨hqmem, hqchapter⟩ := mem_loadParagraphsForChapter.mp hq
  have hchapter : p.chapterId = q.chapterId := hpchapter.trans hqchapter.symm
  refine h.paragraphs p hpmem q hqmem hchapter (lt_of_le_of_ne hpq.1 fun heq => hpq.2 ?_)
  rw [hchapter, heq]

structure ReadingOrder (s : Store) (bookVersionId : Id) (chapters : List Chapter) : Prop where
  stored : ∀ c ∈ chapters, c ∈ s.chapters ∧ c.bookVersionId = bookVersionId
  increasing : chapters.Pairwise fun c c' => c.orderIndex < c'.orderIndex

variable {chapters : List Chapter} {bookVersionId : Id}

theorem ReadingOrder.nodup (h : ReadingOrder s bookVersionId chapters) (hspine : SpineOrdered s) :
    (chapters.map Chapter.id).Nodup := by
  refine List.pairwise_map.mpr (h.increasing.imp_of_mem fun {c c'} hc hc' hlt hid => ?_)
  have heq : c = c' :=
    List.inj_on_of_nodup_map hspine.chapterIds (h.stored c hc).1 (h.stored c' hc').1 hid
  rw [heq] at hlt
  exact lt_irrefl _ hlt

theorem ReadingOrder.paragraphs_pairwise (h : ReadingOrder s bookVersionId chapters)
    (hspine : SpineOrdered s) :
    ((chapters.map Chapter.id).flatMap fun chapterId => loadParagraphsForChapter chapterId s).Pairwise
      fun p q => p.spinePosition < q.spinePosition := by
  rw [List.flatMap_map, List.pairwise_flatMap]
  refine ⟨fun c _ => loadParagraphsForChapter_pairwise hspine c.id, ?_⟩
  refine h.increasing.imp_of_mem fun {c c'} hc hc' hlt p hp q hq => ?_
  obtain ⟨hcmem, hcversion⟩ := h.stored c hc
  obtain ⟨hcmem', hcversion'⟩ := h.stored c' hc'
  obtain ⟨hpmem, hpchapter⟩ := mem_loadParagraphsForChapter.mp hp
  obtain ⟨hqmem, hqchapter⟩ := mem_loadParagraphsForChapter.mp hq
  exact hspine.chapters c hcmem c' hcmem' (hcversion.trans hcversion'.symm) hlt p hpmem q hqmem
    hpchapter hqchapter

theorem cover_paragraphSources (p : Paragraph) {x : ℤ} (h0 : 0 ≤ x) (hlt : x < p.text.length) :
    cover ((paragraphSources p).map ChunkSource.span) x = 1 := by
  obtain ⟨i, rfl⟩ := Int.eq_ofNat_of_zero_le h0
  have hi : i < p.text.length := by simpa using hlt
  have hne : p.text ≠ [] := List.ne_nil_of_length_pos (by omega)
  have hone := (chunkParagraph_consecutive (by decide : 0 < defaultMaxChars) hne).countP_eq_one
    (Nat.zero_le i) hi
  rw [← hone, cover, paragraphSources, List.map_map, List.countP_map, List.countP_map]
  refine List.countP_congr fun span _ => ?_
  show decide _ = true ↔ decide _ = true
  rw [decide_eq_true_iff, decide_eq_true_iff]
  show (span.charStart : ℤ) ≤ i ∧ (i : ℤ) < span.charEnd ↔ span.charStart ≤ i ∧ i < span.charEnd
  omega

variable {paragraphs : List Paragraph}

theorem spansOf_flatMap_paragraphSources (hnodup : (paragraphs.map Paragraph.id).Nodup)
    {p : Paragraph} (hp : p ∈ paragraphs) :
    spansOf p.id (paragraphs.flatMap paragraphSources)
      = (paragraphSources p).map ChunkSource.span := by
  have hid : ∀ (q : Paragraph), ∀ source ∈ paragraphSources q, source.paragraphId = q.id := by
    intro q source hsource
    obtain ⟨span, -, rfl⟩ := List.mem_map.mp hsource
    rfl
  unfold spansOf
  congr 1
  induction paragraphs with
  | nil => cases hp
  | cons q paragraphs ih =>
      obtain ⟨hq, hnodup⟩ := List.nodup_cons.mp hnodup
      rw [List.flatMap_cons, List.filter_append]
      rcases List.mem_cons.mp hp with rfl | hp
      · -- no other paragraph has this id
        rw [List.filter_eq_self.mpr fun source hsource => decide_eq_true (hid p source hsource),
          List.filter_eq_nil_iff.mpr ?_, List.append_nil]
        intro source hsource hsame
        obtain ⟨r, hr, hsource⟩ := List.mem_flatMap.mp hsource
        refine hq (List.mem_map.mpr ⟨r, hr, ?_⟩)
        rw [← hid r source hsource]
        exact of_decide_eq_true hsame
      · rw [ih hnodup hp, List.filter_eq_nil_iff.mpr ?_, List.nil_append]
        intro source hsource hsame
        refine hq (List.mem_map.mpr ⟨p, hp, ?_⟩)
        rw [← hid q source hsource]
        exact (of_decide_eq_true hsame).symm

theorem coversExactly_paragraphSources (hnodup : (paragraphs.map Paragraph.id).Nodup) :
    CoversExactly paragraphs (paragraphs.flatMap paragraphSources) := by
  refine ⟨fun p hp x h0 hlt => ?_, fun source hsource => ?_⟩
  · rw [spansOf_flatMap_paragraphSources hnodup hp]
    exact cover_paragraphSources p h0 hlt
  · obtain ⟨p, hp, hsource⟩ := List.mem_flatMap.mp hsource
    obtain ⟨span, hspan, rfl⟩ := List.mem_map.mp hsource
    obtain ⟨-, hstop⟩ := chunkParagraph_bounds (by decide) hspan
    exact ⟨p, hp, rfl, Int.natCast_nonneg _, Int.ofNat_le.mpr hstop⟩

theorem paragraphSources_pairwise (hmem : ∀ p ∈ paragraphs, p ∈ s.paragraphs)
    (hspine : paragraphs.Pairwise fun p q => p.spinePosition < q.spinePosition) :
    (paragraphs.flatMap paragraphSources).Pairwise (Precedes s) := by
  rw [List.pairwise_flatMap]
  constructor
  · intro p _
    unfold paragraphSources
    rw [List.pairwise_map]
    refine (chunkParagraph_pairwise (by decide) p.text).imp fun {span later} hle => .inr ⟨rfl, ?_⟩
    exact Int.ofNat_le.mpr hle
  · refine hspine.imp_of_mem fun {p q} hp hq hlt source hsource later hlater => .inl ?_
    obtain ⟨span, -, rfl⟩ := List.mem_map.mp hsource
    obtain ⟨span', -, rfl⟩ := List.mem_map.mp hlater
    exact ⟨p, hmem p hp, q, hmem q hq, rfl, rfl, hlt⟩

theorem of_sequenceIndex_lt {R : PlannedChunk → PlannedChunk → Prop} {chunks : List PlannedChunk}
    (hseq : chunks.map PlannedChunk.sequenceIndex = List.range chunks.length)
    (hR : chunks.Pairwise R) {chunk later : PlannedChunk} (hchunk : chunk ∈ chunks)
    (hlater : later ∈ chunks) (hlt : chunk.sequenceIndex < later.sequenceIndex) : R chunk later := by
  obtain ⟨i, hi, rfl⟩ := List.getElem_of_mem hchunk
  obtain ⟨j, hj, rfl⟩ := List.getElem_of_mem hlater
  have hindex : ∀ k (hk : k < chunks.length), chunks[k].sequenceIndex = k := by
    intro k hk
    have h := congrArg (fun l => l[k]?) hseq
    simpa [hk] using h
  rw [hindex i hi, hindex j hj] at hlt
  exact List.pairwise_iff_getElem.mp hR i j hi hj hlt

theorem complete_plan (hspine : SpineOrdered s) (h : ReadingOrder s bookVersionId chapters) :
    Complete s (chapters.map Chapter.id) (plan s (chapters.map Chapter.id)) := by
  have hnodup := h.nodup hspine
  have hparagraphs := h.paragraphs_pairwise hspine
  have hmem : ∀ p ∈ (chapters.map Chapter.id).flatMap fun chapterId =>
      loadParagraphsForChapter chapterId s, p ∈ s.paragraphs := by
    intro p hp
    obtain ⟨chapterId, -, hp⟩ := List.mem_flatMap.mp hp
    exact (mem_loadParagraphsForChapter.mp hp).1
  -- a paragraph is not read twice
  have hids : (((chapters.map Chapter.id).flatMap fun chapterId =>
      loadParagraphsForChapter chapterId s).map Paragraph.id).Nodup := by
    refine List.pairwise_map.mpr (hparagraphs.imp_of_mem fun {p q} hp hq hlt hid => ?_)
    rw [List.inj_on_of_nodup_map hspine.paragraphIds (hmem p hp) (hmem q hq) hid] at hlt
    exact lt_irrefl _ hlt
  have hsource : (plan s (chapters.map Chapter.id)).map PlannedChunk.source = _ := planFrom_source
  refine ⟨?_, fun chunk hchunk => ?_, ?_, fun chunk hchunk later hlater hlt => ?_,
    fun chapterId hchapter => ?_, fun chunk hchunk other hother hchapter => ?_⟩
  · rw [hsource]
    exact coversExactly_paragraphSources hids
  · have hchapter := chapterId_mem_of_mem_planFrom hchunk
    refine ⟨hchapter, ?_⟩
    obtain ⟨m, hm⟩ := exists_mem_planChapter (s := s) (n := 0) hnodup hchapter
    exact exists_paragraph_of_mem_planChapter (hm chunk hchunk rfl)
  · rw [plan_sequenceIndex]
  · have hpairwise : (plan s (chapters.map Chapter.id)).Pairwise fun a b =>
        Precedes s a.source b.source := by
      rw [← List.pairwise_map, hsource]
      exact paragraphSources_pairwise hmem hparagraphs
    exact of_sequenceIndex_lt plan_sequenceIndex hpairwise hchunk hlater hlt
  · obtain ⟨m, hm⟩ := exists_filter_planFrom (s := s) (n := 0) hnodup hchapter
    rw [List.countP_eq_length_filter]
    show (((plan s _).filter _).map _).Perm (List.range ((plan s _).filter _).length)
    unfold plan
    rw [hm, planChapter, planSpans_chapterSequenceIndex, planSpans_length, List.range_eq_range']
  · obtain ⟨m, hm⟩ := exists_mem_planChapter (s := s) (n := 0) hnodup
      (chapterId_mem_of_mem_planFrom hchunk)
    have h₁ := (of_mem_planChapter (hm chunk hchunk rfl)).2
    have h₂ := (of_mem_planChapter (hm other hother hchapter.symm)).2
    omega

end complete

end AudioBook
