import AudioBook.Director.Decisions
import AudioBook.Director.Partition

/-!
# What a Revision Feeds

Generation takes the dialogue hint of a chunk from the quote that the chunk was cut out of, and
threads the last speaker and performance from chunk to chunk. A revision looks for an opening quote
in the chunk itself, and feeds no speaker and no performance.

## Main results

* `hasOpeningQuote_iff`: the hints agree, but for the later pieces of a quote.
* `revisedAlike_iff_first`: a revision of an unchanged chunk feeds what generation fed exactly for the
  first chunk of a run that no narrative state gives a speaker to.
-/

namespace AudioBook.Direction

open RevisionRow (hasOpeningQuote)

/-! ## Hints -/

section Hints

variable {maxChars : ℕ}

theorem hasOpeningQuote_singleton (c : Char) :
    hasOpeningQuote [c] = decide (c = '"' ∨ c = '“') := by
  simp [hasOpeningQuote, eq_comm]

theorem hasOpeningQuote_append (text text' : Text) :
    hasOpeningQuote (text ++ text') = (hasOpeningQuote text || hasOpeningQuote text') := by
  simp only [hasOpeningQuote, List.mem_append, Bool.decide_or]
  ac_rfl

variable {text : Text}

theorem slice_succ {rest : Text} {start pos : ℕ} {c : Char} (hstart : start ≤ pos)
    (hrest : text.drop pos = c :: rest) :
    slice text start (pos + 1) = slice text start pos ++ [c] := by
  have hc : (text.drop start)[pos - start]? = some c := by
    rw [List.getElem?_drop, Nat.add_sub_cancel' hstart, ← List.head?_drop, hrest]
    rfl
  unfold slice
  rw [Nat.succ_sub hstart, List.take_add_one, hc]
  rfl

theorem quoteSpans_openingQuote (text rest : Text) {start pos : ℕ} {inQuote : Bool}
    (hrest : text.drop pos = rest) (hstart : start ≤ pos)
    (hread : if inQuote then hasOpeningQuote (slice text start (start + 1)) = true
      else hasOpeningQuote (slice text start pos) = false)
    {span : ℕ × ℕ × Bool} (hmem : span ∈ quoteSpans start pos inQuote rest) :
    if span.2.2 then hasOpeningQuote (slice text span.1 (span.1 + 1)) = true
      else hasOpeningQuote (slice text span.1 span.2.1) = false := by
  induction rest generalizing start pos inQuote with
  | nil =>
      rw [quoteSpans] at hmem
      split at hmem
      · rw [List.mem_singleton.mp hmem]
        exact hread
      · cases hmem
  | cons c rest ih =>
      have hnext : text.drop (pos + 1) = rest := by
        rw [← List.drop_drop, hrest]
        rfl
      -- nothing of the span that begins after `c` has been read
      have hfresh : hasOpeningQuote (slice text (pos + 1) (pos + 1)) = false := by
        simp [slice, hasOpeningQuote]
      rw [quoteSpans] at hmem
      by_cases hin : inQuote = true
      · rw [if_pos hin] at hmem hread
        split at hmem
        · rcases List.mem_cons.mp hmem with rfl | hmem
          · exact hread
          · exact ih hnext (le_refl _) (by simpa using hfresh) hmem
        · exact ih hnext (by omega) (by simpa using hread) hmem
      · rw [if_neg hin] at hmem hread
        by_cases hopen : c = '"' ∨ c = '“'
        · rw [if_pos hopen] at hmem
          have hquote : hasOpeningQuote (slice text pos (pos + 1)) = true := by
            rw [slice_succ (le_refl pos) hrest, hasOpeningQuote_append,
              hasOpeningQuote_singleton, decide_eq_true hopen, Bool.or_true]
          split at hmem
          · rcases List.mem_cons.mp hmem with rfl | hmem
            · exact hread
            · exact ih hnext (Nat.le_succ pos) (by simpa using hquote) hmem
          · exact ih hnext (Nat.le_succ pos) (by simpa using hquote) hmem
        · rw [if_neg hopen] at hmem
          refine ih hnext (by omega) ?_ hmem
          rw [if_neg (by simp), slice_succ hstart hrest, hasOpeningQuote_append,
            hasOpeningQuote_singleton, hread, decide_eq_false hopen, Bool.or_false]

theorem hasOpeningQuote_slice_mono {start stop start' stop' : ℕ} (hstart : start ≤ start')
    (hstop : stop' ≤ stop) (h : hasOpeningQuote (slice text start' stop') = true) :
    hasOpeningQuote (slice text start stop) = true := by
  have hpart : (slice text start' stop').Sublist (slice text start stop) := by
    unfold slice
    by_cases hle : start' ≤ stop'
    · have hdrop : text.drop start' = (text.drop start).drop (start' - start) := by
        rw [List.drop_drop, Nat.add_sub_cancel' hstart]
      have htake : stop' - start' = (stop' - start) - (start' - start) := by omega
      rw [hdrop, htake, ← List.drop_take]
      exact (List.drop_sublist _ _).trans (List.take_sublist_take_left (by omega))
    · rw [Nat.sub_eq_zero_of_le (by omega : stop' ≤ start'), List.take_zero]
      exact List.nil_sublist _
  simp only [hasOpeningQuote, decide_eq_true_eq] at h ⊢
  exact h.imp (fun hc => hpart.subset hc) (fun hc => hpart.subset hc)

theorem splitToBudget_zero (text : Text) {start stop : ℕ} (hlt : start < stop) :
    splitToBudget text 0 start stop = [] := by
  have hhard : ∀ boundary fuel cursor, ∀ piece ∈ hardSplit 0 boundary fuel cursor,
      piece.2 ≤ piece.1 := by
    intro boundary fuel
    induction fuel with
    | zero => simp [hardSplit]
    | succ fuel ih =>
        intro cursor piece hmem
        rw [hardSplit] at hmem
        split at hmem
        · rcases List.mem_cons.mp hmem with rfl | hmem
          · simp
          · exact ih _ piece hmem
        · cases hmem
  have hsplit : ∀ boundaries pieceStart,
      ∀ piece ∈ splitAtBoundaries 0 stop pieceStart boundaries, piece.2 ≤ piece.1 := by
    intro boundaries
    induction boundaries with
    | nil => simp [splitAtBoundaries]
    | cons boundary boundaries ih =>
        intro pieceStart piece hmem
        rw [splitAtBoundaries] at hmem
        split at hmem
        · exact ih _ piece hmem
        · split at hmem
          · exact (List.mem_append.mp hmem).elim (hhard _ _ _ piece) (ih _ piece)
          · rcases List.mem_cons.mp hmem with rfl | hmem
            · show boundary ≤ pieceStart
              omega
            · exact ih _ piece hmem
  unfold splitToBudget
  rw [if_neg (by omega), List.filter_eq_nil_iff]
  intro piece hmem
  have h := hsplit _ _ piece hmem
  simpa using h

theorem chunkParagraph_zero (hne : text ≠ []) : chunkParagraph text 0 = [] := by
  have hquotes := quoteSpans_consecutive (le_refl 0) false text
  unfold chunkParagraph
  rw [if_neg hne, List.flatMap_eq_nil_iff]
  rintro ⟨start, stop, isDialogue⟩ hquote
  obtain ⟨-, hlt, -⟩ := hquotes.bounds (List.mem_map_of_mem hquote)
  show (splitToBudget text 0 start stop).map _ = []
  rw [splitToBudget_zero text hlt, List.map_nil]

variable {span : ChunkSpan}

theorem exists_quoteSpan (hne : text ≠ []) (hmem : span ∈ chunkParagraph text maxChars) :
    ∃ start stop, (start, stop, span.isDialogueHint) ∈ quoteSpans 0 0 false text ∧
      start ≤ span.charStart ∧ span.charStart < span.charEnd ∧ span.charEnd ≤ stop ∧
      span.text = slice text span.charStart span.charEnd := by
  have hmax : 0 < maxChars := by
    refine Nat.pos_of_ne_zero ?_
    rintro rfl
    rw [chunkParagraph_zero hne] at hmem
    cases hmem
  have hquotes := quoteSpans_consecutive (le_refl 0) false text
  unfold chunkParagraph at hmem
  rw [if_neg hne] at hmem
  obtain ⟨⟨start, stop, isDialogue⟩, hquote, hspan⟩ := List.mem_flatMap.mp hmem
  obtain ⟨⟨pieceStart, pieceStop⟩, hpiece, rfl⟩ := List.mem_map.mp hspan
  obtain ⟨-, hlt, hstop⟩ : 0 ≤ start ∧ start < stop ∧ stop ≤ 0 + text.length :=
    hquotes.bounds (List.mem_map_of_mem hquote)
  have hpieces := splitToBudget_consecutive hmax hlt (by simpa using hstop)
  obtain ⟨hfirst, hnonempty, hlast⟩ := hpieces.bounds hpiece
  exact ⟨start, stop, hquote, hfirst, hnonempty, hlast, rfl⟩

theorem text_eq_slice (hmem : span ∈ chunkParagraph text maxChars) :
    slice text span.charStart span.charEnd = span.text := by
  by_cases hne : text = []
  · subst hne
    obtain rfl : span = ⟨0, 0, [], false⟩ := by simpa [chunkParagraph] using hmem
    rfl
  · obtain ⟨-, -, -, -, -, -, htext⟩ := exists_quoteSpan hne hmem
    exact htext.symm

theorem hasOpeningQuote_narrative (hmem : span ∈ chunkParagraph text maxChars)
    (hhint : span.isDialogueHint = false) : hasOpeningQuote span.text = false := by
  by_cases hne : text = []
  · subst hne
    obtain rfl : span = ⟨0, 0, [], false⟩ := by simpa [chunkParagraph] using hmem
    rfl
  · obtain ⟨start, stop, hquote, hstart, -, hstop, htext⟩ := exists_quoteSpan hne hmem
    have h := quoteSpans_openingQuote text text rfl (le_refl 0)
      (by simp [slice, hasOpeningQuote]) hquote
    rw [hhint] at h
    rw [htext]
    exact Bool.eq_false_iff.mpr fun hpart =>
      Bool.eq_false_iff.mp (by simpa using h) (hasOpeningQuote_slice_mono hstart hstop hpart)

theorem hasOpeningQuote_first (hmem : span ∈ chunkParagraph text maxChars)
    (hfirst : span.charStart = 0) (hhint : span.isDialogueHint = true) :
    hasOpeningQuote span.text = true := by
  by_cases hne : text = []
  · subst hne
    obtain rfl : span = ⟨0, 0, [], false⟩ := by simpa [chunkParagraph] using hmem
    cases hhint
  · obtain ⟨start, stop, hquote, hstart, hlt, -, htext⟩ := exists_quoteSpan hne hmem
    have h := quoteSpans_openingQuote text text rfl (le_refl 0)
      (by simp [slice, hasOpeningQuote]) hquote
    rw [hhint] at h
    obtain rfl : start = 0 := by omega
    rw [htext, hfirst]
    have hopen : hasOpeningQuote (slice text 0 1) = true := by simpa using h
    exact hasOpeningQuote_slice_mono (le_refl 0) (by omega) hopen

theorem hasOpeningQuote_iff (hmem : span ∈ chunkParagraph text maxChars) :
    hasOpeningQuote span.text = span.isDialogueHint ↔
      (span.isDialogueHint = true → hasOpeningQuote span.text = true) := by
  cases hhint : span.isDialogueHint with
  | false => simp [hasOpeningQuote_narrative hmem hhint]
  | true => simp

end Hints

/-! ## The State That Is Threaded -/

/-- No chunk came before, and no speaker was handed in. -/
structure ChapterRunState.Unstarted (st : ChapterRunState) : Prop where
  speaker : st.previousSpeakerId = none
  emotion : st.previousEmotion = none

theorem not_unstarted_nextState (speaker : ResolvedSpeaker) (decision : PerformanceDecision) :
    ¬ (nextState speaker decision).Unstarted := fun h => Option.some_ne_none _ h.speaker

theorem unstarted_entering_iff (st : ChapterRunState) (ctx : DirectorChapterContext) :
    (st.entering ctx).Unstarted ↔ st.Unstarted ∧ ctx.initialPreviousSpeakerId = none := by
  constructor
  · rintro ⟨hspeaker, hemotion⟩
    have hor : (st.previousSpeakerId <|> ctx.initialPreviousSpeakerId) = none := hspeaker
    cases hst : st.previousSpeakerId with
    | none => exact ⟨⟨hst, hemotion⟩, by rwa [hst] at hor⟩
    | some speaker =>
        rw [hst] at hor
        cases hor
  · rintro ⟨⟨hspeaker, hemotion⟩, hinitial⟩
    refine ⟨?_, hemotion⟩
    show (st.previousSpeakerId <|> ctx.initialPreviousSpeakerId) = none
    rw [hspeaker, hinitial]
    rfl

section Loop

variable {ε : Type} {u : PythonText} {provider : Provider ε} {maxChars : ℕ}
  {ctx : DirectorChapterContext} {st last : ChapterRunState} {n m : ℕ}
  {spans : List (DirectorParagraphRow × ChunkSpan)} {chunks : List DirectedChunk}

theorem directSpans_unstarted_iff
    (h : directSpans u provider ctx st n m spans = .ok (chunks, last)) :
    last.Unstarted ↔ st.Unstarted ∧ spans = [] := by
  cases spans with
  | nil =>
      cases h
      simp
  | cons place spans =>
      -- the state after a chunk names its speaker, and no later chunk takes that back
      suffices hnot : ¬ last.Unstarted by simp [hnot]
      obtain ⟨-, rest, speaker, decision, -, -, hrest⟩ := directSpans_cons_eq_ok h
      have hstarted := not_unstarted_nextState speaker decision
      clear h
      revert hstarted hrest
      generalize nextState speaker decision = st'
      intro hrest hstarted
      induction spans generalizing st' rest n m with
      | nil =>
          cases hrest
          exact hstarted
      | cons place spans ih =>
          obtain ⟨-, rest', speaker, decision, -, -, hrest'⟩ := directSpans_cons_eq_ok hrest
          exact ih rest' _ hrest' (not_unstarted_nextState speaker decision)

theorem directSpans_getElem? (h : directSpans u provider ctx st n m spans = .ok (chunks, last))
    {i : ℕ} {chunk : DirectedChunk} (hi : chunks[i]? = some chunk) :
    ∃ st' place, spans[i]? = some place ∧ DirectedIn u ctx st' place chunk ∧
      (i = 0 → st' = st) ∧ (i ≠ 0 → ¬ st'.Unstarted) := by
  induction spans generalizing st n m chunks i with
  | nil =>
      cases h
      cases hi
  | cons place spans ih =>
      obtain ⟨first, rest, speaker, decision, rfl, hfirst, hrest⟩ := directSpans_cons_eq_ok h
      cases i with
      | zero =>
          cases hi
          exact ⟨st, place, rfl, hfirst, fun _ => rfl, fun h => absurd rfl h⟩
      | succ i =>
          obtain ⟨st', place', hplace, hchunk, hzero, hpos⟩ := ih hrest hi
          refine ⟨st', place', hplace, hchunk, fun h => absurd h (Nat.succ_ne_zero i), fun _ => ?_⟩
          rcases Nat.eq_zero_or_pos i with hi0 | hi0
          · rw [hzero hi0]
            exact not_unstarted_nextState speaker decision
          · exact hpos (Nat.pos_iff_ne_zero.mp hi0)

theorem charStart_of_head_spans {place : DirectorParagraphRow × ChunkSpan}
    (h : (ctx.spans maxChars)[0]? = some place) : place.2.charStart = 0 := by
  rw [← List.head?_eq_getElem?, DirectorChapterContext.spans, List.head?_flatMap] at h
  obtain ⟨paragraph, -, hhead⟩ := List.exists_of_findSome?_eq_some h
  rw [List.head?_map] at hhead
  obtain ⟨span, hspan, rfl⟩ := Option.map_eq_some_iff.mp hhead
  show span.charStart = 0
  by_cases hne : paragraph.text = []
  · rw [hne] at hspan
    cases hspan
    rfl
  · rcases Nat.eq_zero_or_pos maxChars with rfl | hmax
    · rw [chunkParagraph_zero hne] at hspan
      cases hspan
    · have hpieces := chunkParagraph_consecutive hmax hne
      obtain ⟨rest, hrest⟩ := List.head?_eq_some_iff.mp hspan
      rw [hrest] at hpieces
      exact hpieces.1

theorem directChapters_getElem? {ctxs : List DirectorChapterContext}
    {chapters : List (List DirectedChunk)}
    (h : directChapters u provider maxChars st n ctxs = .ok chapters) {k : ℕ}
    (hctx : ctxs[k]? = some ctx) (hchunks : chapters[k]? = some chunks) :
    ∃ st' n' last, directChapter u provider maxChars ctx st' n' = .ok (chunks, last) ∧
      ((st'.entering ctx).Unstarted ↔ st.Unstarted ∧ (∀ c ∈ ctxs.take k, c.spans maxChars = []) ∧
        ∀ c ∈ ctxs.take (k + 1), c.initialPreviousSpeakerId = none) := by
  induction ctxs generalizing st n chapters k with
  | nil => cases hctx
  | cons first ctxs ih =>
      rw [directChapters] at h
      obtain ⟨⟨directed, left⟩, hfirst, h⟩ := Relational.except_bind_eq_ok_iff.mp h
      obtain ⟨rest, hrest, h⟩ := Relational.except_bind_eq_ok_iff.mp h
      cases h
      cases k with
      | zero =>
          cases hctx
          cases hchunks
          refine ⟨st, n, left, hfirst, ?_⟩
          rw [unstarted_entering_iff]
          simp
      | succ k =>
          obtain ⟨st', n', last', hchapter, hiff⟩ := ih hrest hctx hchunks
          refine ⟨st', n', last', hchapter, ?_⟩
          rw [hiff, directSpans_unstarted_iff hfirst, unstarted_entering_iff]
          simp only [List.take_succ_cons, List.forall_mem_cons]
          tauto

end Loop

/-! ## Revising a Chunk -/

/-- The resolver and the provider are fed the same hint, the same previous speaker and the same
previous state. -/
structure FedAlike (query query' : SpeakerQuery) (input input' : PerformanceChunkInput) : Prop where
  resolverHint : query'.span.isDialogueHint = query.span.isDialogueHint
  providerHint : input'.isDialogueHint = input.isDialogueHint
  previousSpeaker : query'.previousSpeakerId = query.previousSpeakerId
  previousState : input'.previousState = input.previousState

/-- A revision of the chunk's row, with the chapter as it was, feeds what generation fed. -/
def DirectedChunk.RevisedAlike (u : PythonText) (ctx : DirectorChapterContext)
    (chunk : DirectedChunk) (id : Id) : Prop :=
  ∃ paragraph, (chunk.fields.row id).paragraph? ctx = some paragraph ∧
    FedAlike chunk.query ((chunk.fields.row id).query ctx paragraph) chunk.input
      ((chunk.fields.row id).input ctx paragraph
        (resolveSpeaker u ((chunk.fields.row id).query ctx paragraph)))

section Revision

variable {u : PythonText} {ctx : DirectorChapterContext} {st : ChapterRunState} {maxChars : ℕ}
  {place : DirectorParagraphRow × ChunkSpan} {chunk : DirectedChunk}

theorem paragraph?_row (hchunk : DirectedIn u ctx st place chunk) (hmem : place.1 ∈ ctx.paragraphs)
    (id : Id) : (chunk.fields.row id).paragraph? ctx = some place.1 := by
  have hid : (chunk.fields.row id).paragraphId = place.1.id := hchunk.paragraphId
  unfold RevisionRow.paragraph?
  rw [hid]
  cases hfound : ctx.paragraphs.reverse.find? fun p => decide (p.id = place.1.id) with
  | none =>
      have h := List.find?_eq_none.mp hfound place.1 (List.mem_reverse.mpr hmem)
      simp at h
  | some p =>
      have hp : p.id = place.1.id := by simpa using List.find?_some hfound
      have hmem' := List.mem_reverse.mp (List.mem_of_find?_eq_some hfound)
      rw [ctx.paragraph_pkey p hmem' place.1 hmem hp]

theorem span_row (hchunk : DirectedIn u ctx st place chunk) (id : Id)
    (hspan : place.2 ∈ chunkParagraph place.1.text maxChars) :
    (chunk.fields.row id).span place.1 =
      { place.2 with isDialogueHint := hasOpeningQuote place.2.text } := by
  have hstart : (chunk.fields.row id).paragraphCharStart = place.2.charStart := hchunk.charStart
  have hstop : (chunk.fields.row id).paragraphCharEnd = place.2.charEnd := hchunk.charEnd
  unfold RevisionRow.span
  rw [hstart, hstop, text_eq_slice hspan]

theorem revisedAlike_iff (hchunk : DirectedIn u ctx st place chunk)
    (hmem : place ∈ ctx.spans maxChars) (id : Id) :
    chunk.RevisedAlike u ctx id ↔
      (place.2.isDialogueHint = true → hasOpeningQuote place.2.text = true) ∧ st.Unstarted := by
  obtain ⟨hparagraph, hspan⟩ := mem_of_mem_spans hmem
  have hrow := span_row hchunk id hspan
  have hprevious : none = st.previousState ↔ st.previousEmotion = none := by
    unfold ChapterRunState.previousState
    cases st.previousEmotion <;> simp
  rw [← hasOpeningQuote_iff hspan]
  constructor
  · rintro ⟨paragraph, hfound, hfed⟩
    rw [paragraph?_row hchunk hparagraph id] at hfound
    cases hfound
    have hhint : ((chunk.fields.row id).span place.1).isDialogueHint =
        chunk.query.span.isDialogueHint := hfed.resolverHint
    have hspeaker : none = chunk.query.previousSpeakerId := hfed.previousSpeaker
    have hstate : none = chunk.input.previousState := hfed.previousState
    rw [hrow, hchunk.query] at hhint
    rw [hchunk.query] at hspeaker
    rw [hchunk.input] at hstate
    exact ⟨hhint, hspeaker.symm, hprevious.mp hstate⟩
  · rintro ⟨hhint, hstate⟩
    refine ⟨place.1, paragraph?_row hchunk hparagraph id, ?_, ?_, ?_, ?_⟩
    · show ((chunk.fields.row id).span place.1).isDialogueHint = _
      rw [hrow, hchunk.query]
      exact hhint
    · show ((chunk.fields.row id).span place.1).isDialogueHint = _
      rw [hrow, hchunk.input]
      exact hhint
    · rw [hchunk.query]
      exact hstate.speaker.symm
    · rw [hchunk.input]
      exact hprevious.mpr hstate.emotion

end Revision

/-- A revision of an unchanged chunk of a run feeds what generation fed exactly if the chunk is the
first one of the run and no narrative state up to its chapter names a previous speaker. -/
theorem revisedAlike_iff_first {ε : Type} (u : PythonText) (provider : Provider ε) (maxChars : ℕ)
    {ctxs : List DirectorChapterContext} {chapters : List (List DirectedChunk)}
    (h : directChapters u provider maxChars {} 0 ctxs = .ok chapters) {k i : ℕ}
    {ctx : DirectorChapterContext} {chunks : List DirectedChunk} {chunk : DirectedChunk}
    (hctx : ctxs[k]? = some ctx) (hchunks : chapters[k]? = some chunks)
    (hchunk : chunks[i]? = some chunk) (id : Id) :
    chunk.RevisedAlike u ctx id ↔
      i = 0 ∧ (∀ c ∈ ctxs.take k, c.spans maxChars = []) ∧
        ∀ c ∈ ctxs.take (k + 1), c.initialPreviousSpeakerId = none := by
  obtain ⟨st, n, last, hchapter, hstart⟩ := directChapters_getElem? h hctx hchunks
  obtain ⟨st', place, hplace, hdirected, hzero, hpos⟩ := directSpans_getElem? hchapter hchunk
  rw [revisedAlike_iff hdirected (List.mem_of_getElem? hplace)]
  have hempty : ({} : ChapterRunState).Unstarted := ⟨rfl, rfl⟩
  constructor
  · rintro ⟨-, hunstarted⟩
    have hi : i = 0 := by
      by_contra hi
      exact hpos hi hunstarted
    rw [hzero hi] at hunstarted
    exact ⟨hi, (hstart.mp hunstarted).2⟩
  · rintro ⟨rfl, hbefore⟩
    refine ⟨fun hhint => ?_, ?_⟩
    · -- a chapter starts with the first piece of a paragraph
      have hspan := (mem_of_mem_spans (List.mem_of_getElem? hplace)).2
      exact hasOpeningQuote_first hspan (charStart_of_head_spans hplace) hhint
    · rw [hzero rfl]
      exact hstart.mpr ⟨hempty, hbefore⟩


/-! ## Turn-Taking -/

/-- `Ann: "Hi."`, and in the next paragraph `"Go."`; the book knows Ann and Bob. -/
def annAndBob : DirectorChapterContext where
  chapterId := 1
  paragraphs := [
    { id := 1
      orderIndex := 0
      spinePosition := 0
      chapterId := 1
      sceneId := none
      text := ['A', 'n', 'n', ':', ' ', '"', 'H', 'i', '.', '"'] },
    { id := 2
      orderIndex := 1
      spinePosition := 1
      chapterId := 1
      sceneId := none
      text := ['"', 'G', 'o', '.', '"'] }]
  paragraph_pkey := by decide
  sceneSemanticsByScene := []
  knownSpeakers := [
    { characterId := 1, displayName := ['A', 'n', 'n'], normalizedNames := [['a', 'n', 'n']] },
    { characterId := 2, displayName := ['B', 'o', 'b'], normalizedNames := [['b', 'o', 'b']] }]
  sentinels := ⟨11, 12, 13, 14⟩
  initialPreviousSpeakerId := none

/-- The chunks of the chapter: `Ann: `, her line, and the line in the next paragraph. -/
def annAndBobChunks : List DirectedChunk :=
  match directChapter asciiText calmProvider defaultMaxChars annAndBob {} 0 with
  | .ok (chunks, _) => chunks
  | .error _ => []

theorem directChapters_annAndBob :
    directChapters asciiText calmProvider defaultMaxChars {} 0 [annAndBob] =
      .ok [annAndBobChunks] := by
  decide +kernel

/-- The first chunk of the run is revised alike, and the third one is not. -/
theorem revisedAlike_annAndBob :
    ∃ first third, annAndBobChunks[0]? = some first ∧ annAndBobChunks[2]? = some third ∧
      first.RevisedAlike asciiText annAndBob 21 ∧ ¬ third.RevisedAlike asciiText annAndBob 23 := by
  obtain ⟨first, hfirst⟩ : ∃ first, annAndBobChunks[0]? = some first :=
    Option.isSome_iff_exists.mp (by decide +kernel)
  obtain ⟨third, hthird⟩ : ∃ third, annAndBobChunks[2]? = some third :=
    Option.isSome_iff_exists.mp (by decide +kernel)
  refine ⟨first, third, hfirst, hthird, ?_, fun h => ?_⟩
  · apply (revisedAlike_iff_first asciiText calmProvider defaultMaxChars directChapters_annAndBob
      (k := 0) rfl rfl hfirst 21).mpr
    simp [annAndBob]
  · have hiff := (revisedAlike_iff_first asciiText calmProvider defaultMaxChars
      directChapters_annAndBob (k := 0) rfl rfl hthird 23).mp h
    exact absurd hiff.1 (by decide)

/-- The line in the next paragraph is generated as Bob's turn; a revision, which does not know that
Ann spoke before, resolves no speaker for it. -/
example :
    annAndBobChunks[2]?.map (fun chunk => (chunk.fields.speakerType, chunk.fields.characterId)) =
        some (.character, 2) ∧
      (annAndBobChunks[2]?.map fun chunk =>
        ((chunk.fields.row 23).revise annAndBob asciiText calmProvider).map fun revised =>
          revised.map fun r => (r.fields.speakerType, r.fields.characterId)) =
        some (.ok (some (.unknown, 12))) := by
  decide +kernel

/-- A revision does not feed what generation fed for every chunk that has not changed. -/
theorem not_forall_revisedAlike :
    ¬ ∀ (ε : Type) (u : PythonText) (provider : Provider ε) (maxChars : ℕ)
        (ctxs : List DirectorChapterContext) (chapters : List (List DirectedChunk)),
        directChapters u provider maxChars {} 0 ctxs = .ok chapters →
        ∀ (k : ℕ) (ctx : DirectorChapterContext) (chunks : List DirectedChunk),
          ctxs[k]? = some ctx → chapters[k]? = some chunks →
          ∀ chunk ∈ chunks, ∀ id : Id, chunk.RevisedAlike u ctx id := by
  intro h
  have hlast : ∃ chunk ∈ annAndBobChunks, chunk.query.previousSpeakerId = some 1 := by
    decide +kernel
  obtain ⟨chunk, hchunk, hspeaker⟩ := hlast
  obtain ⟨_, -, hfed⟩ := h Unit asciiText calmProvider defaultMaxChars [annAndBob]
    [annAndBobChunks] directChapters_annAndBob 0 annAndBob annAndBobChunks rfl rfl chunk hchunk 23
  have hnone : none = chunk.query.previousSpeakerId := hfed.previousSpeaker
  rw [hspeaker] at hnone
  cases hnone

end AudioBook.Direction
