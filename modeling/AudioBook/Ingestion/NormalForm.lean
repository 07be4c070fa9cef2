import AudioBook.Ingestion.Text
import AudioBook.Texts.Boundaries
import Mathlib.Data.List.Chain

/-!
# The Normal Form of Text

`normalizeText` composes a text canonically, leaves out its soft hyphens, and then joins lines and
collapses spaces. What the later steps change are separators, so they keep a text in NFC and leave
one that is not; a soft hyphen may have kept two characters apart that compose.

Main results:

- `isNfc_normalizeText_iff`: the result is in NFC if the text without soft hyphens is.
- `normalized_iff`: which texts are normalized.
-/

namespace AudioBook.NormalForm

open Boundaries

/-! ## Normal Forms -/

def IsNfc (u : UnicodeData) (text : Text) : Prop := u.nfc text = text

instance (u : UnicodeData) (text : Text) : Decidable (IsNfc u text) :=
  inferInstanceAs (Decidable (_ = _))

/-- What Unicode promises of NFC: it is stable, closed under substrings, the identity on ASCII, and
what stands before an ASCII character, or around whitespace or a hyphen, does not compose with it. -/
structure NfcLaws (u : UnicodeData) : Prop where
  idempotent : ∀ text, IsNfc u (u.nfc text)
  substring : ∀ s t, IsNfc u (s ++ t) → IsNfc u s ∧ IsNfc u t
  ascii : ∀ c : Char, c.toNat < 128 → IsNfc u [c]
  starter : ∀ (c : Char) (s t : Text), c.toNat < 128 → IsNfc u s → IsNfc u (c :: t) →
    IsNfc u (s ++ c :: t)
  inert : ∀ (c : Char) (s t : Text), isWhitespace c = true ∨ c = '-' → IsNfc u [c] → IsNfc u s →
    IsNfc u t → IsNfc u (s ++ c :: t)

namespace NfcLaws

variable {u : UnicodeData} {c : Char} {text : Text}

theorem nil (hu : NfcLaws u) : IsNfc u [] := (hu.substring [] ['a'] (hu.ascii 'a' (by decide))).1

theorem of_mem (hu : NfcLaws u) (htext : IsNfc u text) (hc : c ∈ text) : IsNfc u [c] := by
  obtain ⟨s, t, rfl⟩ := List.append_of_mem hc
  exact (hu.substring [c] t (hu.substring s (c :: t) htext).2).1

theorem starts (hu : NfcLaws u) (hc : c.toNat < 128) : Starts (IsNfc u) c := fun s t =>
  ⟨hu.substring s (c :: t), fun ⟨hs, ht⟩ => hu.starter c s t hc hs ht⟩

theorem isolated (hu : NfcLaws u) (hc : isWhitespace c = true ∨ c = '-') (hself : IsNfc u [c]) :
    Isolated (IsNfc u) c := by
  intro s t
  constructor
  · intro h
    obtain ⟨hs, ht⟩ := hu.substring s (c :: t) h
    exact ⟨hs, (hu.substring [c] t ht).2⟩
  · rintro ⟨hs, ht⟩
    exact hu.inert c s t hc hself hs ht

theorem isolated_ascii (hu : NfcLaws u) (hc : c ∈ [' ', '\t', '\n', '\r', '-']) :
    Isolated (IsNfc u) c := by
  simp only [List.mem_cons, List.not_mem_nil, or_false] at hc
  rcases hc with rfl | rfl | rfl | rfl | rfl <;>
    exact hu.isolated (by decide) (hu.ascii _ (by decide))

end NfcLaws

/-! ## Runs -/

section Runs

variable {kind : Char → Bool} {replacement c : Char} {inRun : Bool} {text : Text}

theorem mem_collapseRuns (h : c ∈ collapseRuns kind replacement inRun text) :
    c = replacement ∨ c ∈ text ∧ kind c = false := by
  induction text generalizing inRun with
  | nil => cases h
  | cons d text ih =>
    have hrest : ∀ {inRun : Bool}, c ∈ collapseRuns kind replacement inRun text →
        c = replacement ∨ c ∈ d :: text ∧ kind c = false := fun hc =>
      (ih hc).imp_right fun ⟨hmem, hkind⟩ => ⟨List.mem_cons_of_mem d hmem, hkind⟩
    rw [collapseRuns] at h
    split at h
    · split at h
      · exact hrest h
      · rcases List.mem_cons.mp h with rfl | h
        · exact .inl rfl
        · exact hrest h
    case isFalse hd =>
      rcases List.mem_cons.mp h with rfl | h
      · exact .inr ⟨List.mem_cons_self, by simpa using hd⟩
      · exact hrest h

/-- Two neighbours are not both `c`. -/
def Apart (c a b : Char) : Prop := ¬ (a = c ∧ b = c)

theorem isChain_collapseRuns (kind : Char → Bool) (inRun : Bool) (text : Text)
    (hkind : kind replacement = true) :
    (collapseRuns kind replacement inRun text).IsChain (Apart replacement) ∧
      (inRun = true → (collapseRuns kind replacement inRun text).head? ≠ some replacement) := by
  induction text generalizing inRun with
  | nil => exact ⟨List.isChain_nil, fun _ => by simp [collapseRuns]⟩
  | cons d text ih =>
    rw [collapseRuns]
    by_cases hd : kind d = true
    · obtain ⟨hchain, hhead⟩ := ih true
      cases inRun with
      | true =>
        rw [if_pos hd, if_pos rfl]
        exact ⟨hchain, hhead⟩
      | false =>
        rw [if_pos hd, if_neg (by simp)]
        refine ⟨List.isChain_cons.mpr ⟨fun b hb hboth => hhead rfl ?_, hchain⟩, fun h => by cases h⟩
        rw [hb, hboth.2]
    · rw [if_neg hd]
      have hne : d ≠ replacement := fun heq => hd (heq ▸ hkind)
      exact ⟨List.isChain_cons.mpr ⟨fun _ _ hboth => hne hboth.1, (ih false).1⟩,
        fun _ h => hne (Option.some.inj h)⟩

theorem collapseRuns_eq_self (hkind : ∀ c ∈ text, kind c = true → c = replacement)
    (hchain : text.IsChain (Apart replacement))
    (hhead : inRun = true → text.head? ≠ some replacement) :
    collapseRuns kind replacement inRun text = text := by
  induction text generalizing inRun with
  | nil => rfl
  | cons d text ih =>
    obtain ⟨hnext, hchain⟩ := List.isChain_cons.mp hchain
    -- the run goes on only behind a replacement, and no other one follows it
    have hrest : ∀ {inRun : Bool}, (inRun = true → d = replacement) →
        collapseRuns kind replacement inRun text = text := by
      intro inRun hrun
      refine ih (fun c hc => hkind c (List.mem_cons_of_mem d hc)) hchain fun hin hnew => ?_
      exact hnext _ hnew ⟨hrun hin, rfl⟩
    rw [collapseRuns]
    by_cases hd : kind d = true
    · have heq := hkind d List.mem_cons_self hd
      have hout : ¬ inRun = true := fun hin => hhead hin (by rw [List.head?_cons, heq])
      rw [if_pos hd, if_neg hout, hrest fun _ => heq, heq]
    · rw [if_neg hd, hrest fun h => by cases h]

theorem collapseRuns_of_no_run (hkind : ∀ c ∈ text, kind c = false) :
    collapseRuns kind replacement inRun text = text := by
  induction text generalizing inRun with
  | nil => rfl
  | cons d text ih =>
    rw [collapseRuns, if_neg (by simp [hkind d List.mem_cons_self]),
      ih fun c hc => hkind c (List.mem_cons_of_mem d hc)]

theorem sameAfter_collapseRuns {P : Text → Prop} (hnil : P [])
    (hkind : ∀ c, kind c = true → Isolated P c) (hreplacement : Isolated P replacement) :
    (inRun = false → SameAfter P (collapseRuns kind replacement inRun text) text) ∧
      (P (collapseRuns kind replacement inRun text) ↔ P text) := by
  induction text generalizing inRun with
  | nil => exact ⟨fun _ => .refl [], Iff.rfl⟩
  | cons d text ih =>
    rw [collapseRuns]
    by_cases hd : kind d = true
    · obtain ⟨-, hrest⟩ := @ih true
      cases inRun with
      -- within a run the separator is left out, behind another one
      | true =>
        rw [if_pos hd, if_pos rfl, hrest, (hkind d hd).cons_iff hnil]
        exact ⟨fun h => (by cases h), Iff.rfl⟩
      | false =>
        rw [if_pos hd, if_neg (by simp)]
        have hsame := hreplacement.sameAfter hnil (hkind d hd) hrest
        exact ⟨fun _ => hsame, hsame.iff⟩
    · rw [if_neg hd]
      have hsame := ((@ih false).1 rfl).cons d
      exact ⟨fun _ => hsame, hsame.iff⟩

end Runs

/-! ## Lines -/

section Lines

variable {u : UnicodeData} {last : Option Char} {inMatch : Bool} {text : Text}

theorem unifyLineBreaks_sublist : (unifyLineBreaks text).Sublist text := by
  fun_induction unifyLineBreaks text with
  | case1 text ih => exact (ih.cons_cons _).cons _
  | case2 c text hbreak ih => exact ih.cons_cons c
  | case3 => exact .slnil

theorem unifyLineBreaks_eq_self (h : '\n' ∉ text) : unifyLineBreaks text = text := by
  fun_induction unifyLineBreaks text with
  | case1 text ih => exact absurd (by simp) h
  | case2 c text hbreak ih => rw [ih fun hmem => h (List.mem_cons_of_mem c hmem)]
  | case3 => rfl

theorem sameAfter_unifyLineBreaks (hu : NfcLaws u) :
    SameAfter (IsNfc u) (unifyLineBreaks text) text := by
  fun_induction unifyLineBreaks text with
  | case1 text ih =>
    have hbreak : Isolated (IsNfc u) '\n' := hu.isolated_ascii (by simp)
    have hreturn : Isolated (IsNfc u) '\r' := hu.isolated_ascii (by simp)
    exact hbreak.sameAfter hu.nil hreturn (ih.iff.trans (hbreak.cons_iff hu.nil).symm)
  | case2 c text hbreak ih => exact ih.cons c
  | case3 => exact .refl []

theorem dehyphenateFrom_sublist : (dehyphenateFrom u last inMatch text).Sublist text := by
  fun_induction dehyphenateFrom u last inMatch text with
  | case1 before after text hletter hlower ih => exact ((ih.cons_cons after).cons _).cons _
  | case2 before after text hletter hlower ih => exact ((ih.cons_cons after).cons _).cons_cons _
  | case3 before after text hletter ih => exact (ih.cons_cons _).cons_cons _
  | case4 last inMatch c text hmatch hletter ih => exact ih.cons_cons c
  | case5 last inMatch c text hmatch hletter ih => exact ih.cons_cons c
  | case6 => exact .slnil

theorem dehyphenateFrom_eq_self (h : '\n' ∉ text) : dehyphenateFrom u last inMatch text = text := by
  fun_induction dehyphenateFrom u last inMatch text with
  | case1 | case2 | case3 => exact absurd (by simp) h
  | case4 last inMatch c text hmatch hletter ih =>
    rw [ih fun hmem => h (List.mem_cons_of_mem c hmem)]
  | case5 last inMatch c text hmatch hletter ih =>
    rw [ih fun hmem => h (List.mem_cons_of_mem c hmem)]
  | case6 => rfl

theorem toNat_lt_of_isLowercaseAscii {c : Char} (h : isLowercaseAscii c = true) :
    c.toNat < 128 := by
  have hz : c ≤ 'z' := of_decide_eq_true (Bool.and_eq_true_iff.mp h).2
  exact lt_of_le_of_lt (Char.le_def.mp hz) (by decide)

theorem sameAfter_dehyphenateFrom (hu : NfcLaws u) :
    SameAfter (IsNfc u) (dehyphenateFrom u last inMatch text) text := by
  have hhyphen : Isolated (IsNfc u) '-' := hu.isolated_ascii (by simp)
  have hbreak : Isolated (IsNfc u) '\n' := hu.isolated_ascii (by simp)
  fun_induction dehyphenateFrom u last inMatch text with
  -- the hyphen and the line break are left out, and the letter behind them starts a piece
  | case1 before after text hletter hlower ih =>
    have hafter := toNat_lt_of_isLowercaseAscii (Bool.and_eq_true_iff.mp hlower).2
    exact (hu.starts hafter).sameAfter hhyphen
      ((ih.cons after).iff.trans (hbreak.cons_iff hu.nil).symm)
  -- the hyphen is kept before another letter
  | case2 before after text hletter hlower ih =>
    exact hhyphen.sameAfter hu.nil hhyphen
      ((ih.cons after).iff.trans (hbreak.cons_iff hu.nil).symm)
  | case3 before after text hletter ih => exact (ih.cons '\n').cons '-'
  | case4 last inMatch c text hmatch hletter ih => exact ih.cons c
  | case5 last inMatch c text hmatch hletter ih => exact ih.cons c
  | case6 => exact .refl []

end Lines

/-! ## Ends -/

section Ends

variable {text : Text}

theorem trim_eq (text : Text) :
    trim text = (text.dropWhile isWhitespace).rdropWhile isWhitespace := rfl

theorem isInfix_trim (text : Text) : trim text <:+: text :=
  (List.rdropWhile_prefix isWhitespace _).isInfix.trans (List.dropWhile_suffix _).isInfix

theorem isWhitespace_head_trim {c : Char} (hc : (trim text).head? = some c) :
    isWhitespace c = false := by
  obtain ⟨rest, hrest⟩ := List.rdropWhile_prefix isWhitespace (text.dropWhile isWhitespace)
  have hhead : (text.dropWhile isWhitespace).head? = some c := by
    rw [← hrest, ← trim_eq, List.head?_append, hc]
    rfl
  have hnot := List.head?_dropWhile_not isWhitespace text
  rw [hhead] at hnot
  exact hnot

theorem isWhitespace_getLast_trim {c : Char} (hc : (trim text).getLast? = some c) :
    isWhitespace c = false := by
  have hne : trim text ≠ [] := fun hnil => by simp [hnil] at hc
  rw [List.getLast?_eq_some_getLast hne] at hc
  have hnot := List.rdropWhile_last_not isWhitespace (text.dropWhile isWhitespace) hne
  rw [← Option.some.inj hc]
  exact Bool.eq_false_iff.mpr hnot

theorem trim_eq_self (hhead : ∀ c ∈ text.head?, isWhitespace c = false)
    (hlast : ∀ c ∈ text.getLast?, isWhitespace c = false) : trim text = text := by
  have hfront : text.dropWhile isWhitespace = text := by
    cases text with
    | nil => rfl
    | cons c text =>
      rw [List.dropWhile_cons_of_neg (by simp [hhead c rfl])]
  rw [trim_eq, hfront, List.rdropWhile_eq_self_iff]
  intro hne
  simp [hlast _ (List.getLast?_eq_some_getLast hne)]

end Ends

/-! ## The Normal Form -/

def withoutSoftHyphens (text : Text) : Text := text.filter fun c => decide (c ≠ '\u00ad')

/-- One space for every run of spaces and tabs. -/
def spaced (text : Text) : Text :=
  collapseRuns (fun c => c = ' ' || c = '\t') ' ' false (unifyLineBreaks text)

def joinLines (u : UnicodeData) (config : IngestionConfig) (text : Text) : Text :=
  let broken := collapseRuns (· = '\n') (if config.dehyphenate then '\n' else ' ') false text
  if config.dehyphenate then (dehyphenate u broken).map fun c => if c = '\n' then ' ' else c
  else broken

variable {u : UnicodeData} {config : IngestionConfig} {text : Text}

theorem normalizeText_eq (u : UnicodeData) (config : IngestionConfig) (text : Text) :
    normalizeText u config text = trim (collapseRuns (· = ' ') ' ' false
      (joinLines u config (spaced (withoutSoftHyphens (u.nfc text))))) := rfl

variable {c : Char}

theorem mem_joinLines (h : c ∈ joinLines u config text) : c = ' ' ∨ c ∈ text ∧ c ≠ '\n' := by
  unfold joinLines at h
  split at h
  case isTrue =>
    obtain ⟨d, hd, rfl⟩ := List.mem_map.mp h
    split
    case isTrue => exact .inl rfl
    case isFalse hd' =>
      rcases mem_collapseRuns (dehyphenateFrom_sublist.subset hd) with hbreak | ⟨hmem, -⟩
      · exact absurd hbreak hd'
      · exact .inr ⟨hmem, hd'⟩
  case isFalse =>
    rcases mem_collapseRuns h with hspace | ⟨hmem, hkind⟩
    · exact .inl hspace
    · exact .inr ⟨hmem, by simpa using hkind⟩

theorem mem_spaced (h : c ∈ spaced text) : c = ' ' ∨ c ∈ text ∧ c ≠ '\t' := by
  rcases mem_collapseRuns h with hspace | ⟨hmem, hkind⟩
  · exact .inl hspace
  · refine .inr ⟨unifyLineBreaks_sublist.subset hmem, ?_⟩
    simp only [Bool.or_eq_false_iff, decide_eq_false_iff_not] at hkind
    exact hkind.2

theorem mem_normalizeText (h : c ∈ normalizeText u config text) :
    c = ' ' ∨ c ∈ withoutSoftHyphens (u.nfc text) ∧ c ≠ '\t' ∧ c ≠ '\n' := by
  rw [normalizeText_eq] at h
  rcases mem_collapseRuns ((isInfix_trim _).subset h) with hspace | ⟨hmem, -⟩
  · exact .inl hspace
  · rcases mem_joinLines hmem with hspace | ⟨hmem, hbreak⟩
    · exact .inl hspace
    · exact (mem_spaced hmem).imp_right fun ⟨hmem, htab⟩ => ⟨hmem, htab, hbreak⟩

theorem isChain_normalizeText :
    (normalizeText u config text).IsChain (Apart ' ') := by
  obtain ⟨before, after, hsplit⟩ := isInfix_trim (collapseRuns (· = ' ') ' ' false
    (joinLines u config (spaced (withoutSoftHyphens (u.nfc text)))))
  obtain ⟨hchain, -⟩ := isChain_collapseRuns (· = ' ') false (joinLines u config
    (spaced (withoutSoftHyphens (u.nfc text)))) (decide_eq_true rfl)
  rw [← hsplit] at hchain
  exact hchain.left_of_append.right_of_append

theorem isNfc_collapseRuns {replacement : Char} (hu : NfcLaws u) (hc : Isolated (IsNfc u) c)
    (hreplacement : Isolated (IsNfc u) replacement) :
    IsNfc u (collapseRuns (· = c) replacement false text) ↔ IsNfc u text := by
  refine (sameAfter_collapseRuns hu.nil (fun d hd => ?_) hreplacement).2
  rw [of_decide_eq_true hd]
  exact hc

theorem isNfc_joinLines (hu : NfcLaws u) : IsNfc u (joinLines u config text) ↔ IsNfc u text := by
  have hbreak : Isolated (IsNfc u) '\n' := hu.isolated_ascii (by simp)
  have hspace : Isolated (IsNfc u) ' ' := hu.isolated_ascii (by simp)
  unfold joinLines
  split
  case isTrue =>
    have hmap : ∀ broken : Text, SameAfter (IsNfc u)
        (broken.map fun c => if c = '\n' then ' ' else c) broken := by
      intro broken
      refine sameAfter_map hu.nil fun c _ => ?_
      split
      case isTrue hc => exact .inr ⟨hspace, hc ▸ hbreak⟩
      case isFalse => exact .inl rfl
    rw [(hmap _).iff, dehyphenate, (sameAfter_dehyphenateFrom hu).iff]
    exact isNfc_collapseRuns hu hbreak hbreak
  case isFalse => exact isNfc_collapseRuns hu hbreak hspace

theorem isNfc_spaced (hu : NfcLaws u) : IsNfc u (spaced text) ↔ IsNfc u text := by
  have hkind : ∀ c, (decide (c = ' ') || decide (c = '\t')) = true → Isolated (IsNfc u) c := by
    intro c hc
    refine hu.isolated_ascii ?_
    simp only [Bool.or_eq_true, decide_eq_true_eq] at hc
    rcases hc with rfl | rfl <;> simp
  exact (sameAfter_collapseRuns hu.nil hkind (hu.isolated_ascii (by simp))).2.trans
    (sameAfter_unifyLineBreaks hu).iff

theorem isNfc_trim (hu : NfcLaws u) (hself : ∀ c ∈ text, IsNfc u [c]) :
    IsNfc u (trim text) ↔ IsNfc u text := by
  have hisolated : ∀ c ∈ text, isWhitespace c = true → Isolated (IsNfc u) c :=
    fun c hc hspace => hu.isolated (.inl hspace) (hself c hc)
  rw [trim_eq, rdropWhile_iff hu.nil fun c hc => hisolated c (List.dropWhile_subset _ hc),
    dropWhile_iff hu.nil hisolated]

theorem isNfc_normalizeText_iff (hu : NfcLaws u) :
    IsNfc u (normalizeText u config text) ↔ IsNfc u (withoutSoftHyphens (u.nfc text)) := by
  have hspace : Isolated (IsNfc u) ' ' := hu.isolated_ascii (by simp)
  rw [normalizeText_eq, isNfc_trim hu, isNfc_collapseRuns hu hspace hspace, isNfc_joinLines hu,
    isNfc_spaced hu]
  intro c hc
  -- a character of the result is a space, or one of a text in NFC
  have hcases : c = ' ' ∨ c ∈ u.nfc text := by
    rcases mem_collapseRuns hc with hsp | ⟨hmem, -⟩
    · exact .inl hsp
    · rcases mem_joinLines hmem with hsp | ⟨hmem, -⟩
      · exact .inl hsp
      · exact (mem_spaced hmem).imp_right fun h => (List.mem_filter.mp h.1).1
  rcases hcases with rfl | hmem
  · exact hu.ascii ' ' (by decide)
  · exact hu.of_mem (hu.idempotent text) hmem

/-- A text of which `normalizeText` changes nothing any more, without line breaks, soft hyphens,
whitespace at its ends and spaces side by side, and in NFC. -/
structure Normalized (u : UnicodeData) (config : IngestionConfig) (text : Text) : Prop where
  idempotent : normalizeText u config text = text
  nfc : u.nfc text = text
  newline : '\n' ∉ text
  softHyphen : '\u00ad' ∉ text
  leading : ∀ c ∈ text.head?, isWhitespace c = false
  trailing : ∀ c ∈ text.getLast?, isWhitespace c = false
  spaces : ¬ [' ', ' '] <:+: text

theorem normalizeText_eq_self (hnfc : IsNfc u text) (hsoft : '\u00ad' ∉ text) (htab : '\t' ∉ text)
    (hbreak : '\n' ∉ text) (hchain : text.IsChain (Apart ' '))
    (hhead : ∀ c ∈ text.head?, isWhitespace c = false)
    (hlast : ∀ c ∈ text.getLast?, isWhitespace c = false) : normalizeText u config text = text := by
  have hfilter : withoutSoftHyphens (u.nfc text) = text := by
    rw [withoutSoftHyphens, show u.nfc text = text from hnfc]
    exact List.filter_eq_self.mpr fun c hc => decide_eq_true fun heq => hsoft (heq ▸ hc)
  have hspaced : spaced text = text := by
    rw [spaced, unifyLineBreaks_eq_self hbreak]
    refine collapseRuns_eq_self (fun c hc hkind => ?_) hchain fun h => by cases h
    simp only [Bool.or_eq_true, decide_eq_true_eq] at hkind
    exact hkind.resolve_right fun heq => htab (heq ▸ hc)
  have hbroken : ∀ replacement : Char,
      collapseRuns (· = '\n') replacement false text = text := fun replacement =>
    collapseRuns_of_no_run fun c hc => decide_eq_false fun heq => hbreak (heq ▸ hc)
  have hjoin : joinLines u config text = text := by
    unfold joinLines
    split
    case isTrue =>
      change (dehyphenateFrom u none false (collapseRuns _ _ false text)).map _ = text
      rw [hbroken, dehyphenateFrom_eq_self hbreak]
      refine (List.map_congr_left fun c hc => ?_).trans (List.map_id text)
      exact if_neg fun heq : c = '\n' => hbreak (heq ▸ hc)
    case isFalse => exact hbroken _
  have hcollapse : collapseRuns (· = ' ') ' ' false text = text :=
    collapseRuns_eq_self (fun c _ hkind => of_decide_eq_true hkind) hchain fun h => by cases h
  rw [normalizeText_eq, hfilter, hspaced, hjoin, hcollapse, trim_eq_self hhead hlast]

theorem not_mem_normalizeText (hspace : c ≠ ' ')
    (hc : c ∉ withoutSoftHyphens (u.nfc text) ∨ c = '\t' ∨ c = '\n') :
    c ∉ normalizeText u config text := by
  intro hmem
  obtain ⟨hmem, htab, hbreak⟩ := (mem_normalizeText hmem).resolve_left hspace
  rcases hc with hc | hc | hc
  · exact hc hmem
  · exact htab hc
  · exact hbreak hc

theorem normalized_of_isNfc (hu : NfcLaws u) (h : IsNfc u (withoutSoftHyphens (u.nfc text))) :
    Normalized u config (normalizeText u config text) := by
  have hnfc : IsNfc u (normalizeText u config text) := (isNfc_normalizeText_iff hu).mpr h
  have hsoft : '\u00ad' ∉ normalizeText u config text :=
    not_mem_normalizeText (by decide) (.inl (by simp [withoutSoftHyphens]))
  have htab : '\t' ∉ normalizeText u config text :=
    not_mem_normalizeText (by decide) (.inr (.inl rfl))
  have hbreak : '\n' ∉ normalizeText u config text :=
    not_mem_normalizeText (by decide) (.inr (.inr rfl))
  have hhead : ∀ c ∈ (normalizeText u config text).head?, isWhitespace c = false :=
    fun c hc => isWhitespace_head_trim hc
  have hlast : ∀ c ∈ (normalizeText u config text).getLast?, isWhitespace c = false :=
    fun c hc => isWhitespace_getLast_trim hc
  exact {
    idempotent := normalizeText_eq_self hnfc hsoft htab hbreak isChain_normalizeText hhead hlast
    nfc := hnfc
    newline := hbreak
    softHyphen := hsoft
    leading := hhead
    trailing := hlast
    spaces := by
      rintro ⟨before, after, hsplit⟩
      have hchain : (normalizeText u config text).IsChain (Apart ' ') := isChain_normalizeText
      rw [← hsplit] at hchain
      have hpair : List.IsChain (Apart ' ') [' ', ' '] := hchain.left_of_append.right_of_append
      exact List.isChain_pair.mp hpair ⟨rfl, rfl⟩ }

/-- A text is normalized exactly if leaving out the soft hyphens of its composition leaves it
composed. -/
theorem normalized_iff (hu : NfcLaws u) (config : IngestionConfig) (text : Text) :
    Normalized u config (normalizeText u config text) ↔
      IsNfc u (withoutSoftHyphens (u.nfc text)) :=
  ⟨fun h => (isNfc_normalizeText_iff hu).mp h.nfc, normalized_of_isNfc hu⟩

/-! ## One Accent -/

/-- Compose an `e` with an acute accent behind it. -/
def composeAcute : Text → Text
  | 'e' :: '\u0301' :: text => 'é' :: composeAcute text
  | c :: text => c :: composeAcute text
  | [] => []

/-- The tables of Unicode restricted to ASCII and one accent. -/
def acuteData : UnicodeData where
  nfc := composeAcute
  toLowerCase := List.map Char.toLower
  isLetter c := c.isAlpha || decide (c = 'é')
  isLowercaseLetter c := c.isLower || decide (c = 'é')

/-- The two characters do not compose. -/
def Uncomposed (a b : Char) : Prop := ¬ (a = 'e' ∧ b = '\u0301')

theorem head?_composeAcute (h : (composeAcute text).head? = some '\u0301') :
    text.head? = some '\u0301' := by
  fun_cases composeAcute text with
  | case1 text => exact absurd h (by simp [composeAcute])
  | case2 c text hmatch =>
    rw [composeAcute.eq_2 _ _ hmatch] at h
    exact h
  | case3 => exact h

theorem isChain_composeAcute (text : Text) : (composeAcute text).IsChain Uncomposed := by
  fun_induction composeAcute text with
  | case1 text ih =>
    exact List.isChain_cons.mpr ⟨fun b _ hboth => absurd hboth.1 (by decide), ih⟩
  | case2 c text hmatch ih =>
    refine List.isChain_cons.mpr ⟨?_, ih⟩
    rintro b hb ⟨rfl, rfl⟩
    obtain ⟨rest, hrest⟩ := List.head?_eq_some_iff.mp (head?_composeAcute hb)
    exact hmatch rest rfl hrest
  | case3 => exact List.isChain_nil

theorem isNfc_acuteData_iff : IsNfc acuteData text ↔ text.IsChain Uncomposed := by
  constructor
  · intro h
    rw [← show composeAcute text = text from h]
    exact isChain_composeAcute text
  · intro h
    show composeAcute text = text
    fun_induction composeAcute text with
    | case1 text ih => exact absurd ⟨rfl, rfl⟩ (List.isChain_cons_cons.mp h).1
    | case2 c text hmatch ih => rw [ih h.tail]
    | case3 => rfl

theorem nfcLaws_acuteData : NfcLaws acuteData where
  idempotent text := isNfc_acuteData_iff.mpr (isChain_composeAcute text)
  substring s t h := by
    have hchain := isNfc_acuteData_iff.mp h
    exact ⟨isNfc_acuteData_iff.mpr hchain.left_of_append,
      isNfc_acuteData_iff.mpr hchain.right_of_append⟩
  ascii c _ := isNfc_acuteData_iff.mpr (List.isChain_singleton c)
  starter c s t hc hs ht := by
    rw [isNfc_acuteData_iff] at hs ht ⊢
    refine List.isChain_append.mpr ⟨hs, ht, ?_⟩
    rintro a - b hb ⟨-, rfl⟩
    cases hb
    exact absurd hc (by decide)
  inert c s t hc _ hs ht := by
    rw [isNfc_acuteData_iff] at hs ht ⊢
    refine List.isChain_append.mpr ⟨hs, List.isChain_cons.mpr ⟨?_, ht⟩, ?_⟩
    · rintro b - ⟨rfl, -⟩
      exact absurd hc (by decide)
    · rintro a - b hb ⟨-, rfl⟩
      cases hb
      exact absurd hc (by decide)

/-- An accent behind a soft hyphen. -/
def hyphenatedAccent : Text := ['e', '\u00ad', '\u0301']

/-- The accent is not composed, at either setting. -/
theorem normalized_iff_hyphenatedAccent :
    ¬ Normalized acuteData {} (normalizeText acuteData {} hyphenatedAccent) ∧
      ¬ Normalized acuteData { dehyphenate := false }
        (normalizeText acuteData { dehyphenate := false } hyphenatedAccent) := by
  have hnot : ¬ IsNfc acuteData (withoutSoftHyphens (acuteData.nfc hyphenatedAccent)) := by decide
  exact ⟨fun h => hnot ((normalized_iff nfcLaws_acuteData _ _).mp h),
    fun h => hnot ((normalized_iff nfcLaws_acuteData _ _).mp h)⟩

/-- The second pass composes what the first one has brought together. -/
theorem not_forall_normalized :
    ¬ ∀ (u : UnicodeData), NfcLaws u → ∀ (config : IngestionConfig) (text : Text),
      Normalized u config (normalizeText u config text) := by
  intro h
  have hagain := (h acuteData nfcLaws_acuteData {} hyphenatedAccent).idempotent
  exact absurd hagain (by decide)

end AudioBook.NormalForm
