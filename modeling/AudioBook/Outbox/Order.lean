import AudioBook.Outbox.Publisher
import Mathlib.Algebra.GroupWithZero.Nat

/-!
# Order and Progress of the Outbox

A row that waits is published by one of the next polls, once publishing stops failing and no more
rows come. The rows of one aggregate are first published in the order in which they were written if
they are committed in this order, no poll takes a row while another one holds an earlier row of its
aggregate, and no publication fails that later rows of its aggregate come after in the batch.

- `InOrder`: the order of the first publications.
- `Undisturbed`: the events of such runs.
- `OutboxState.work`: bounds how many events are left without failures and new rows.
- `relay_of_undisturbed`: both results.
-/

namespace AudioBook.Outbox

open Relational Keyset Concurrent

/-- Of two rows of one aggregate, the first publication of the earlier one comes before the first
publication of the later one. -/
def InOrder (s : OutboxState) : Prop :=
  ∀ a ∈ s.rows, ∀ b ∈ s.rows, Earlier a b → b.id ∈ s.published →
    a.id ∈ s.published ∧ s.published.idxOf a.id < s.published.idxOf b.id

/-- Rows are committed before later ones of their aggregate are taken. A poll takes a row only if
no other one holds an earlier row of its aggregate that was not published. A publication fails only
if the row was published before, or no later row of its aggregate is left in the batch. -/
def Undisturbed (batchSize : BatchSize) : OutboxEvent → OutboxState → Prop
  | .insert row, s => ∀ b ∈ s.rows, Earlier row b →
      b.id ∉ s.published ∧ s.isLocked b.id = false
  | .poll scan, s => ∀ b ∈ s.batch scan batchSize, ∀ a ∈ s.rows, Earlier a b →
      a.id ∈ s.published ∨ s.isLocked a.id = false
  | .fail n _, s => ∀ session ∈ s.sessions[n]?, ∀ a ∈ session.remaining.head?,
      a.id ∈ s.published ∨ ∀ b ∈ session.remaining.tail, ¬ Earlier a b
  | .publish _, _ | .commit _, _ | .rollback _, _ => True

instance (batchSize : BatchSize) (l : OutboxEvent) (s : OutboxState) :
    Decidable (Undisturbed batchSize l s) :=
  match l with
  | .insert row => inferInstanceAs (Decidable (∀ b ∈ s.rows, Earlier row b →
      b.id ∉ s.published ∧ s.isLocked b.id = false))
  | .poll scan => inferInstanceAs (Decidable (∀ b ∈ s.batch scan batchSize, ∀ a ∈ s.rows,
      Earlier a b → a.id ∈ s.published ∨ s.isLocked a.id = false))
  | .fail n _ => inferInstanceAs (Decidable (∀ session ∈ s.sessions[n]?,
      ∀ a ∈ session.remaining.head?, a.id ∈ s.published ∨
        ∀ b ∈ session.remaining.tail, ¬ Earlier a b))
  | .publish _ | .commit _ | .rollback _ => isTrue trivial

/-! ## Marks -/

def markRow (marks : List (Id × Option String)) (row : OutboxRow) : OutboxRow :=
  marks.foldl (fun row mark => if row.id = mark.1 then row.mark mark.2 else row) row

variable (marks : List (Id × Option String))

theorem applyMarks_eq_map (rows : List OutboxRow) :
    applyMarks marks rows = rows.map (markRow marks) := by
  unfold applyMarks markRow
  induction marks generalizing rows with
  | nil => simp
  | cons mark marks ih =>
      rw [List.foldl_cons, ih]
      unfold updateWhere
      rw [List.map_map]
      refine List.map_congr_left fun row _ => ?_
      simp only [Function.comp_apply, decide_eq_true_eq, List.foldl_cons]

def OutboxRow.columns (row : OutboxRow) : Id × String × Id × ℤ :=
  (row.id, row.aggregateType, row.aggregateId, row.createdAt)

theorem columns_mark (outcome : Option String) (row : OutboxRow) :
    (row.mark outcome).columns = row.columns := by
  cases outcome <;> rfl

theorem columns_markRow (row : OutboxRow) : (markRow marks row).columns = row.columns := by
  unfold markRow
  induction marks generalizing row with
  | nil => rfl
  | cons mark marks ih =>
      rw [List.foldl_cons, ih]
      split
      · exact columns_mark mark.2 row
      · rfl

theorem id_markRow (row : OutboxRow) :
    (markRow marks row).id = row.id := congrArg Prod.fst (columns_markRow marks row)

theorem status_markRow (row : OutboxRow) :
    (markRow marks row).status = if (row.id, none) ∈ marks then .published else row.status := by
  unfold markRow
  induction marks generalizing row with
  | nil => simp
  | cons mark marks ih =>
      obtain ⟨id, outcome⟩ := mark
      rw [List.foldl_cons]
      by_cases hid : row.id = id
      · rw [if_pos hid, ih]
        have hid' : (row.mark outcome).id = row.id := congrArg Prod.fst (columns_mark outcome row)
        rw [hid']
        simp only [List.mem_cons, Prod.mk.injEq]
        cases outcome with
        | none => simp [hid, OutboxRow.mark]
        | some e => simp [OutboxRow.mark]
      · rw [if_neg hid, ih]
        simp [hid]

theorem earlier_iff_of_columns {a a' b b' : OutboxRow} (ha : a.columns = a'.columns)
    (hb : b.columns = b'.columns) : Earlier a b ↔ Earlier a' b' := by
  unfold OutboxRow.columns at ha hb
  simp only [Prod.mk.injEq] at ha hb
  unfold Earlier SameAggregate
  rw [ha.2.1, ha.2.2.1, ha.2.2.2, hb.2.1, hb.2.2.1, hb.2.2.2]

/-! ## Every Run -/

/-- What holds in every run. -/
structure OutboxOk (s : OutboxState) : Prop where
  ids : (s.rows.map OutboxRow.id).Nodup
  /-- A row with the status `PUBLISHED` was published. -/
  done : ∀ row ∈ s.rows, row.status = .published → row.id ∈ s.published
  marked : ∀ session ∈ s.sessions, ∀ id, (id, none) ∈ session.marks → id ∈ s.published
  known : ∀ id ∈ s.published, id ∈ s.rows.map OutboxRow.id
  /-- The rows of a batch are rows of the table, and locked. -/
  remaining : ∀ session ∈ s.sessions, ∀ row ∈ session.remaining,
    row.id ∈ session.claimed ∧ row.columns ∈ s.rows.map OutboxRow.columns
  markedClaimed : ∀ session ∈ s.sessions, ∀ mark ∈ session.marks, mark.1 ∈ session.claimed

section every

variable {batchSize : BatchSize} {s s' : OutboxState}

theorem mem_batch {scan : KeyOrder outboxKey} {row : OutboxRow}
    (h : row ∈ s.batch scan batchSize) :
    row ∈ s.rows ∧ row.status = .pending ∧ s.isLocked row.id = false := by
  have hcandidate := (scan.perm none s.candidates).subset (List.mem_of_mem_take h)
  obtain ⟨hrow, hfree⟩ := List.mem_filter.mp hcandidate
  simpa [hrow] using hfree

def Session.next (session : Session) (row : OutboxRow) (rest : List OutboxRow)
    (outcome : Option String) : Session :=
  { session with remaining := rest, marks := session.marks ++ [(row.id, outcome)] }

theorem step_cases {l : OutboxEvent} (h : step batchSize l s = some s') :
    (∃ row, l = .insert row ∧ row.id ∉ s.rows.map OutboxRow.id ∧ row.status = .pending ∧
      s' = { s with rows := s.rows ++ [row] }) ∨
    (∃ scan, l = .poll scan ∧ s' = { s with sessions := s.sessions ++ [{
      claimed := (s.batch scan batchSize).map OutboxRow.id
      remaining := s.batch scan batchSize }] }) ∨
    (∃ n session row rest, l = .publish n ∧ s.sessions[n]? = some session ∧
      session.remaining = row :: rest ∧ s' = { s with
        sessions := s.sessions.set n (session.next row rest none)
        published := s.published ++ [row.id] }) ∨
    (∃ n e session row rest, l = .fail n e ∧ s.sessions[n]? = some session ∧
      session.remaining = row :: rest ∧ s' = { s with
        sessions := s.sessions.set n (session.next row rest (some e)) }) ∨
    (∃ n session, l = .commit n ∧ s.sessions[n]? = some session ∧ session.remaining = [] ∧
      s' = { s with
        rows := applyMarks session.marks s.rows
        sessions := s.sessions.eraseIdx n }) ∨
    (∃ n, l = .rollback n ∧ s' = { s with sessions := s.sessions.eraseIdx n }) := by
  cases l with
  | insert row =>
      rw [step, Option.ite_none_right_eq_some] at h
      exact .inl ⟨row, rfl, h.1.1, h.1.2, (Option.some.inj h.2).symm⟩
  | poll scan => exact .inr (.inl ⟨scan, rfl, (Option.some.inj h).symm⟩)
  | publish n =>
      rw [step] at h
      split at h
      · cases h
      · next session hsession =>
          split at h
          · cases h
          · next row rest hremaining =>
              exact .inr (.inr (.inl ⟨n, session, row, rest, rfl, hsession, hremaining,
                (Option.some.inj h).symm⟩))
  | fail n e =>
      rw [step] at h
      split at h
      · cases h
      · next session hsession =>
          split at h
          · cases h
          · next row rest hremaining =>
              exact .inr (.inr (.inr (.inl ⟨n, e, session, row, rest, rfl, hsession, hremaining,
                (Option.some.inj h).symm⟩)))
  | commit n =>
      rw [step] at h
      split at h
      · cases h
      · next session hsession =>
          rw [Option.ite_none_right_eq_some] at h
          exact .inr (.inr (.inr (.inr (.inl ⟨n, session, rfl, hsession, h.1,
            (Option.some.inj h.2).symm⟩))))
  | rollback n =>
      rw [step, Option.ite_none_right_eq_some] at h
      exact .inr (.inr (.inr (.inr (.inr ⟨n, rfl, (Option.some.inj h.2).symm⟩))))

theorem forall_mem_set {P : Session → Prop} {sessions : List Session} {n : ℕ} {session' : Session}
    (h : ∀ session ∈ sessions, P session) (hnew : P session') :
    ∀ session ∈ sessions.set n session', P session := by
  intro session hsession
  rcases List.mem_or_eq_of_mem_set hsession with hold | rfl
  · exact h session hold
  · exact hnew

theorem OutboxOk.remaining_next (h : OutboxOk s) {n : ℕ} {session : Session} {row : OutboxRow}
    {rest : List OutboxRow} (hsession : s.sessions[n]? = some session)
    (hremaining : session.remaining = row :: rest) (outcome : Option String) :
    (∀ r ∈ (session.next row rest outcome).remaining,
      r.id ∈ (session.next row rest outcome).claimed ∧ r.columns ∈ s.rows.map OutboxRow.columns) ∧
    ∀ mark ∈ (session.next row rest outcome).marks,
      mark.1 ∈ (session.next row rest outcome).claimed := by
  have hmem := List.mem_of_getElem? hsession
  have hold := h.remaining session hmem
  rw [hremaining] at hold
  refine ⟨fun r hr => hold r (List.mem_cons_of_mem _ hr), fun mark hmark => ?_⟩
  rcases List.mem_append.mp hmark with hmark | hmark
  · exact h.markedClaimed session hmem mark hmark
  · rw [List.mem_singleton.mp hmark]
    exact (hold row List.mem_cons_self).1

theorem OutboxOk.step (h : OutboxOk s) {l : OutboxEvent} (hstep : step batchSize l s = some s') :
    OutboxOk s' := by
  obtain ⟨row, rfl, hid, hpending, rfl⟩ | ⟨scan, rfl, rfl⟩ |
    ⟨n, session, row, rest, rfl, hsession, hremaining, rfl⟩ |
    ⟨n, e, session, row, rest, rfl, hsession, hremaining, rfl⟩ |
    ⟨n, session, rfl, hsession, -, rfl⟩ | ⟨n, rfl, rfl⟩ := step_cases hstep
  · refine ⟨?_, ?_, h.marked, ?_, ?_, h.markedClaimed⟩
    · rw [List.map_append, List.map_singleton, List.nodup_append]
      refine ⟨h.ids, List.nodup_singleton _, ?_⟩
      rintro id hold id' hnew rfl
      rw [List.mem_singleton.mp hnew] at hold
      exact hid hold
    · intro r hr hstatus
      rcases List.mem_append.mp hr with hr | hr
      · exact h.done r hr hstatus
      · rw [List.mem_singleton.mp hr, hpending] at hstatus
        cases hstatus
    · intro id hmem
      rw [List.map_append]
      exact List.mem_append_left _ (h.known id hmem)
    · intro session hsession r hr
      rw [List.map_append]
      exact ⟨(h.remaining session hsession r hr).1,
        List.mem_append_left _ (h.remaining session hsession r hr).2⟩
  · refine ⟨h.ids, h.done, ?_, h.known, ?_, ?_⟩
    · rw [List.forall_mem_append, List.forall_mem_singleton]
      exact ⟨h.marked, by simp⟩
    · rw [List.forall_mem_append, List.forall_mem_singleton]
      refine ⟨h.remaining, fun r hr => ⟨List.mem_map_of_mem hr, ?_⟩⟩
      exact List.mem_map_of_mem (mem_batch hr).1
    · rw [List.forall_mem_append, List.forall_mem_singleton]
      exact ⟨h.markedClaimed, by simp⟩
  · have hnext := h.remaining_next hsession hremaining none
    refine ⟨h.ids, fun r hr hstatus => List.mem_append_left _ (h.done r hr hstatus), ?_, ?_,
      forall_mem_set h.remaining hnext.1, forall_mem_set h.markedClaimed hnext.2⟩
    · refine forall_mem_set (fun session' hsession' id hmark =>
        List.mem_append_left _ (h.marked session' hsession' id hmark)) fun id hmark => ?_
      rcases List.mem_append.mp hmark with hmark | hmark
      · exact List.mem_append_left _ (h.marked session (List.mem_of_getElem? hsession) id hmark)
      · rw [List.mem_singleton, Prod.mk.injEq] at hmark
        rw [hmark.1]
        exact List.mem_append_right _ (List.mem_singleton_self _)
    · intro id hmem
      rcases List.mem_append.mp hmem with hmem | hmem
      · exact h.known id hmem
      · have hrow := (h.remaining session (List.mem_of_getElem? hsession) row (by
          rw [hremaining]; exact List.mem_cons_self)).2
        obtain ⟨r, hr, hcolumns⟩ := List.mem_map.mp hrow
        rw [List.mem_singleton.mp hmem]
        exact List.mem_map.mpr ⟨r, hr, congrArg Prod.fst hcolumns⟩
  · have hnext := h.remaining_next hsession hremaining (some e)
    refine ⟨h.ids, h.done, ?_, h.known, forall_mem_set h.remaining hnext.1,
      forall_mem_set h.markedClaimed hnext.2⟩
    refine forall_mem_set h.marked fun id hmark => ?_
    rcases List.mem_append.mp hmark with hmark | hmark
    · exact h.marked session (List.mem_of_getElem? hsession) id hmark
    · rw [List.mem_singleton, Prod.mk.injEq] at hmark
      cases hmark.2
  · have hids : (applyMarks session.marks s.rows).map OutboxRow.id = s.rows.map OutboxRow.id := by
      rw [applyMarks_eq_map, List.map_map]
      exact List.map_congr_left fun row _ => id_markRow _ row
    have hcolumns : (applyMarks session.marks s.rows).map OutboxRow.columns =
        s.rows.map OutboxRow.columns := by
      rw [applyMarks_eq_map, List.map_map]
      exact List.map_congr_left fun row _ => columns_markRow _ row
    have hother : ∀ session' ∈ s.sessions.eraseIdx n, session' ∈ s.sessions :=
      fun session' hsession' => List.mem_of_mem_eraseIdx hsession'
    refine ⟨?_, ?_, fun session' hs' => h.marked session' (hother _ hs'), ?_,
      fun session' hs' => ?_, fun session' hs' => h.markedClaimed session' (hother _ hs')⟩
    · rw [hids]
      exact h.ids
    · intro r hr hstatus
      rw [applyMarks_eq_map] at hr
      obtain ⟨r₀, hr₀, rfl⟩ := List.mem_map.mp hr
      rw [status_markRow] at hstatus
      rw [id_markRow]
      split at hstatus
      · next hmark => exact h.marked session (List.mem_of_getElem? hsession) _ hmark
      · exact h.done r₀ hr₀ hstatus
    · rw [hids]
      exact h.known
    · rw [hcolumns]
      exact h.remaining session' (hother _ hs')
  · have hother : ∀ session' ∈ s.sessions.eraseIdx n, session' ∈ s.sessions :=
      fun session' hsession' => List.mem_of_mem_eraseIdx hsession'
    exact ⟨h.ids, h.done, fun session' hs' => h.marked session' (hother _ hs'), h.known,
      fun session' hs' => h.remaining session' (hother _ hs'),
      fun session' hs' => h.markedClaimed session' (hother _ hs')⟩

theorem outboxOk_init : OutboxOk {} :=
  ⟨List.nodup_nil, by simp, by simp, by simp, by simp, by simp⟩

theorem outboxOk_of_reachable {allows : OutboxEvent → OutboxState → Prop}
    (h : (outboxMachine batchSize).Reachable allows s) : OutboxOk s :=
  h.invariant (fun _ hinit => hinit ▸ outboxOk_init) fun _ _ _ hok _ hstep => hok.step hstep

end every

/-! ## Undisturbed Runs -/

/-- What holds in undisturbed runs. -/
structure OrderOk (s : OutboxState) : Prop where
  ok : OutboxOk s
  inOrder : InOrder s
  /-- No row of a batch comes after a later one of its aggregate. -/
  sorted : ∀ session ∈ s.sessions, session.remaining.Pairwise fun a b => ¬ Earlier b a
  /-- What comes before a row of a batch was published, or is left in the batch. -/
  preceded : ∀ session ∈ s.sessions, ∀ b ∈ session.remaining, ∀ a ∈ s.rows, Earlier a b →
    a.id ∈ s.published ∨ a.id ∈ session.remaining.map OutboxRow.id

section order

variable {batchSize : BatchSize} {s s' : OutboxState}

theorem OutboxOk.columns_eq (h : OutboxOk s) {a b : OutboxRow} (ha : a ∈ s.rows)
    (hb : b.columns ∈ s.rows.map OutboxRow.columns) (hid : a.id = b.id) :
    a.columns = b.columns := by
  obtain ⟨b', hb', hcolumns⟩ := List.mem_map.mp hb
  have hb'id : b'.id = b.id := congrArg Prod.fst hcolumns
  rw [List.inj_on_of_nodup_map h.ids ha hb' (hid.trans hb'id.symm)]
  exact hcolumns

variable {row : OutboxRow} {session : Session}

theorem OrderOk.published_of_next (h : OrderOk s) (hsession : session ∈ s.sessions)
    {rest : List OutboxRow} (hremaining : session.remaining = row :: rest) {a : OutboxRow}
    (ha : a ∈ s.rows) (hearlier : Earlier a row) : a.id ∈ s.published := by
  rcases h.preceded session hsession row (hremaining ▸ List.mem_cons_self) a ha hearlier with
    hpublished | hleft
  · exact hpublished
  · exfalso
    obtain ⟨a', ha', hid⟩ := List.mem_map.mp hleft
    have hcolumns := h.ok.columns_eq ha (h.ok.remaining session hsession a' ha').2 hid.symm
    rw [earlier_iff_of_columns hcolumns rfl] at hearlier
    have hsorted := h.sorted session hsession
    rw [hremaining] at hsorted ha'
    rcases List.mem_cons.mp ha' with rfl | ha'
    · exact Int.lt_irrefl _ hearlier.2
    · exact (List.pairwise_cons.mp hsorted).1 a' ha' hearlier

theorem inOrder_publish (h : InOrder s)
    (hbefore : ∀ b ∈ s.rows, b.id = row.id → ∀ a ∈ s.rows, Earlier a b → a.id ∈ s.published)
    (sessions : List Session) :
    InOrder { s with sessions := sessions, published := s.published ++ [row.id] } := by
  intro a ha b hb hearlier hmem
  by_cases hb' : b.id ∈ s.published
  · obtain ⟨ha', hlt⟩ := h a ha b hb hearlier hb'
    refine ⟨List.mem_append_left _ ha', ?_⟩
    rw [List.idxOf_append_of_mem ha', List.idxOf_append_of_mem hb']
    exact hlt
  · have hid : b.id = row.id := by
      rcases List.mem_append.mp hmem with hmem | hmem
      · exact absurd hmem hb'
      · exact List.mem_singleton.mp hmem
    have ha' := hbefore b hb hid a ha hearlier
    refine ⟨List.mem_append_left _ ha', ?_⟩
    rw [List.idxOf_append_of_mem ha', List.idxOf_append_of_notMem hb']
    exact Nat.lt_add_right _ (List.idxOf_lt_length_of_mem ha')

theorem mem_batch_of_earlier {scan : KeyOrder outboxKey} {a b : OutboxRow}
    (hb : b ∈ s.batch scan batchSize) (ha : a ∈ s.candidates) (hearlier : Earlier a b) :
    a ∈ s.batch scan batchSize := by
  have hsorted := scan.sorted none s.candidates
  have hmem : a ∈ scan.order none s.candidates := (scan.perm none s.candidates).symm.subset ha
  unfold OutboxState.batch at hb ⊢
  rw [← List.take_append_drop batchSize.val (scan.order none s.candidates)] at hsorted hmem
  rcases List.mem_append.mp hmem with hmem | hmem
  · exact hmem
  · exfalso
    have hle := (List.pairwise_append.mp hsorted).2.2 b hb a hmem
    have hlt : outboxKey a < outboxKey b := by
      unfold outboxKey
      rw [Prod.Lex.toLex_lt_toLex, Prod.Lex.toLex_lt_toLex]
      exact .inr ⟨hearlier.1.1, .inr ⟨hearlier.1.2, hearlier.2⟩⟩
    exact absurd hle (not_le_of_gt hlt)

theorem batch_pairwise (scan : KeyOrder outboxKey) :
    (s.batch scan batchSize).Pairwise fun a b => ¬ Earlier b a := by
  refine ((scan.sorted none s.candidates).sublist (List.take_sublist _ _)).imp ?_
  intro a b hle hearlier
  have hlt : outboxKey b < outboxKey a := by
    unfold outboxKey
    rw [Prod.Lex.toLex_lt_toLex, Prod.Lex.toLex_lt_toLex]
    exact .inr ⟨hearlier.1.1, .inr ⟨hearlier.1.2, hearlier.2⟩⟩
  exact absurd hle (not_le_of_gt hlt)

theorem isLocked_of_remaining (h : OutboxOk s) (hsession : session ∈ s.sessions)
    (hrow : row ∈ session.remaining) : s.isLocked row.id = true :=
  List.any_eq_true.mpr ⟨session, hsession,
    decide_eq_true (h.remaining session hsession row hrow).1⟩

theorem OrderOk.insert (h : OrderOk s) (hid : row.id ∉ s.rows.map OutboxRow.id)
    (hnew : ∀ b ∈ s.rows, Earlier row b → b.id ∉ s.published ∧ s.isLocked b.id = false)
    (hok : OutboxOk { s with rows := s.rows ++ [row] }) :
    OrderOk { s with rows := s.rows ++ [row] } := by
  refine ⟨hok, ?_, h.sorted, ?_⟩
  · intro a ha b hb hearlier hpublished
    rcases List.mem_append.mp hb with hb | hb
    · rcases List.mem_append.mp ha with ha | ha
      · exact h.inOrder a ha b hb hearlier hpublished
      · rw [List.mem_singleton.mp ha] at hearlier
        exact absurd hpublished (hnew b hb hearlier).1
    · rw [List.mem_singleton.mp hb] at hpublished
      exact absurd (h.ok.known _ hpublished) hid
  · intro session hsession b hb a ha hearlier
    rcases List.mem_append.mp ha with ha | ha
    · exact h.preceded session hsession b hb a ha hearlier
    · exfalso
      rw [List.mem_singleton.mp ha] at hearlier
      obtain ⟨b', hb', hcolumns⟩ := List.mem_map.mp (h.ok.remaining session hsession b hb).2
      rw [← earlier_iff_of_columns rfl hcolumns] at hearlier
      have hfree := (hnew b' hb' hearlier).2
      have hidb : b'.id = b.id := congrArg Prod.fst hcolumns
      rw [hidb, isLocked_of_remaining h.ok hsession hb] at hfree
      cases hfree

theorem OrderOk.poll (h : OrderOk s) {scan : KeyOrder outboxKey}
    (hfree : ∀ b ∈ s.batch scan batchSize, ∀ a ∈ s.rows, Earlier a b →
      a.id ∈ s.published ∨ s.isLocked a.id = false)
    (hok : OutboxOk { s with sessions := s.sessions ++ [{
      claimed := (s.batch scan batchSize).map OutboxRow.id
      remaining := s.batch scan batchSize }] }) :
    OrderOk { s with sessions := s.sessions ++ [{
      claimed := (s.batch scan batchSize).map OutboxRow.id
      remaining := s.batch scan batchSize }] } := by
  refine ⟨hok, h.inOrder, ?_, ?_⟩
  · rw [List.forall_mem_append, List.forall_mem_singleton]
    exact ⟨h.sorted, batch_pairwise scan⟩
  · rw [List.forall_mem_append, List.forall_mem_singleton]
    refine ⟨h.preceded, fun b hb a ha hearlier => ?_⟩
    rcases hfree b hb a ha hearlier with hpublished | hunlocked
    · exact .inl hpublished
    · cases hstatus : a.status with
      | published => exact .inl (h.ok.done a ha hstatus)
      | pending =>
          refine .inr (List.mem_map_of_mem (mem_batch_of_earlier hb ?_ hearlier))
          exact List.mem_filter.mpr ⟨ha, by simp [hstatus, hunlocked]⟩

theorem OrderOk.preceded_next (h : OrderOk s) (hsession : session ∈ s.sessions)
    {rest : List OutboxRow} (hremaining : session.remaining = row :: rest) {published : List Id}
    (hpublished : ∀ id ∈ s.published, id ∈ published)
    (hrow : row.id ∈ published ∨ ∀ b ∈ rest, ¬ Earlier row b) :
    ∀ b ∈ rest, ∀ a ∈ s.rows, Earlier a b →
      a.id ∈ published ∨ a.id ∈ rest.map OutboxRow.id := by
  intro b hb a ha hearlier
  have hmem : b ∈ session.remaining := hremaining ▸ List.mem_cons_of_mem _ hb
  rcases h.preceded session hsession b hmem a ha hearlier with hdone | hleft
  · exact .inl (hpublished _ hdone)
  · rw [hremaining, List.map_cons, List.mem_cons] at hleft
    rcases hleft with hid | hleft
    · rcases hrow with hdone | hlater
      · exact .inl (hid ▸ hdone)
      · have hrowmem : row ∈ session.remaining := hremaining ▸ List.mem_cons_self
        have hcolumns := h.ok.columns_eq ha (h.ok.remaining session hsession row hrowmem).2 hid
        rw [earlier_iff_of_columns hcolumns rfl] at hearlier
        exact absurd hearlier (hlater b hb)
    · exact .inr hleft

theorem OrderOk.step (h : OrderOk s) {l : OutboxEvent} (hl : Undisturbed batchSize l s)
    (hstep : step batchSize l s = some s') : OrderOk s' := by
  have hok := h.ok.step hstep
  obtain ⟨row, rfl, hid, -, rfl⟩ | ⟨scan, rfl, rfl⟩ |
    ⟨n, session, row, rest, rfl, hsession, hremaining, rfl⟩ |
    ⟨n, e, session, row, rest, rfl, hsession, hremaining, rfl⟩ |
    ⟨n, session, rfl, hsession, -, rfl⟩ | ⟨n, rfl, rfl⟩ := step_cases hstep
  · exact h.insert hid hl hok
  · exact h.poll hl hok
  · have hmem := List.mem_of_getElem? hsession
    have hsorted := h.sorted session hmem
    rw [hremaining, List.pairwise_cons] at hsorted
    refine ⟨hok, inOrder_publish h.inOrder (fun b hb hid a ha hearlier => ?_) _,
      forall_mem_set h.sorted hsorted.2, forall_mem_set ?_ ?_⟩
    · have hcolumns := h.ok.columns_eq hb (h.ok.remaining session hmem row
        (hremaining ▸ List.mem_cons_self)).2 hid
      rw [earlier_iff_of_columns rfl hcolumns] at hearlier
      exact h.published_of_next hmem hremaining ha hearlier
    · intro session' hsession' b hb a ha hearlier
      exact (h.preceded session' hsession' b hb a ha hearlier).imp_left (List.mem_append_left _)
    · exact h.preceded_next hmem hremaining (fun _ hid => List.mem_append_left _ hid)
        (.inl (List.mem_append_right _ (List.mem_singleton_self _)))
  · have hmem := List.mem_of_getElem? hsession
    have hsorted := h.sorted session hmem
    rw [hremaining, List.pairwise_cons] at hsorted
    have hfail := hl session hsession row (by rw [hremaining]; rfl)
    rw [hremaining] at hfail
    exact ⟨hok, h.inOrder, forall_mem_set h.sorted hsorted.2, forall_mem_set h.preceded
      (h.preceded_next hmem hremaining (fun _ hid => hid) hfail)⟩
  · have hother : ∀ session' ∈ s.sessions.eraseIdx n, session' ∈ s.sessions :=
      fun session' hsession' => List.mem_of_mem_eraseIdx hsession'
    have hback : ∀ a ∈ applyMarks session.marks s.rows, ∃ a₀ ∈ s.rows, a.columns = a₀.columns ∧
        a.id = a₀.id := by
      intro a ha
      rw [applyMarks_eq_map] at ha
      obtain ⟨a₀, ha₀, rfl⟩ := List.mem_map.mp ha
      exact ⟨a₀, ha₀, columns_markRow _ _, id_markRow _ _⟩
    refine ⟨hok, ?_, fun session' hs' => h.sorted session' (hother _ hs'), ?_⟩
    · intro a ha b hb hearlier hpublished
      obtain ⟨a₀, ha₀, hcolumns, hida⟩ := hback a ha
      obtain ⟨b₀, hb₀, hcolumns', hidb⟩ := hback b hb
      rw [earlier_iff_of_columns hcolumns hcolumns'] at hearlier
      have hpublished₀ : b₀.id ∈ s.published := hidb ▸ hpublished
      rw [hida, hidb]
      exact h.inOrder a₀ ha₀ b₀ hb₀ hearlier hpublished₀
    · intro session' hsession' b hb a ha hearlier
      obtain ⟨a₀, ha₀, hcolumns, hida⟩ := hback a ha
      rw [earlier_iff_of_columns hcolumns rfl] at hearlier
      rw [hida]
      exact h.preceded session' (hother _ hsession') b hb a₀ ha₀ hearlier
  · have hother : ∀ session' ∈ s.sessions.eraseIdx n, session' ∈ s.sessions :=
      fun session' hsession' => List.mem_of_mem_eraseIdx hsession'
    exact ⟨hok, h.inOrder, fun session' hs' => h.sorted session' (hother _ hs'),
      fun session' hs' => h.preceded session' (hother _ hs')⟩

theorem orderOk_of_reachable (h : (outboxMachine batchSize).Reachable (Undisturbed batchSize) s) :
    OrderOk s := by
  refine h.invariant (fun s hinit => ?_) fun _ _ _ hok hl hstep => hok.step hl hstep
  rw [show s = {} from hinit]
  exact ⟨outboxOk_init, by unfold InOrder; simp, by simp, by simp⟩

end order

/-! ## Progress -/

/-- Neither a failure nor a new row, nor a poll that finds nothing. -/
def IsQuiet (batchSize : BatchSize) : OutboxEvent → OutboxState → Prop
  | .poll scan, s => s.batch scan batchSize ≠ []
  | .publish _, _ | .commit _, _ => True
  | .insert _, _ | .fail _ _, _ | .rollback _, _ => False

instance (batchSize : BatchSize) (l : OutboxEvent) (s : OutboxState) :
    Decidable (IsQuiet batchSize l s) :=
  match l with
  | .poll scan => inferInstanceAs (Decidable (s.batch scan batchSize ≠ []))
  | .publish _ | .commit _ => isTrue trivial
  | .insert _ | .fail _ _ | .rollback _ => isFalse id

/-- The transaction publishes the row, or has published it. -/
def Session.handles (session : Session) (id : Id) : Bool :=
  decide (id ∈ session.remaining.map OutboxRow.id ∨ (id, none) ∈ session.marks)

def OutboxState.waits (s : OutboxState) (row : OutboxRow) : Bool :=
  decide (row.status = .pending) && !s.sessions.any fun session => session.handles row.id

/-- How many events are left: three for every row that waits, and what the open transactions have
left to do. -/
def OutboxState.work (s : OutboxState) : ℕ :=
  3 * s.rows.countP s.waits + (s.sessions.map fun session => session.remaining.length + 1).sum

section progress

variable {batchSize : BatchSize} {s s' : OutboxState} {session : Session}

theorem not_handles_of_not_locked (h : OutboxOk s) (hsession : session ∈ s.sessions) {id : Id}
    (hfree : s.isLocked id = false) : session.handles id = false := by
  have hnot : id ∉ session.claimed := by
    intro hmem
    have hlocked : s.isLocked id = true :=
      List.any_eq_true.mpr ⟨session, hsession, decide_eq_true hmem⟩
    rw [hfree] at hlocked
    cases hlocked
  refine decide_eq_false ?_
  rintro (hleft | hmark)
  · obtain ⟨row, hrow, rfl⟩ := List.mem_map.mp hleft
    exact hnot (h.remaining session hsession row hrow).1
  · exact hnot (h.markedClaimed session hsession _ hmark)

theorem countP_waits_poll (batchSize : BatchSize) (h : OutboxOk s) (scan : KeyOrder outboxKey) :
    s.rows.countP ({ s with sessions := s.sessions ++ [{
        claimed := (s.batch scan batchSize).map OutboxRow.id
        remaining := s.batch scan batchSize }] } : OutboxState).waits +
      (s.batch scan batchSize).length ≤ s.rows.countP s.waits := by
  have hnodup : (s.batch scan batchSize).Nodup := by
    have hcandidates : s.candidates.Nodup := h.ids.of_map.filter _
    exact ((scan.perm none s.candidates).nodup_iff.mpr hcandidates).sublist (List.take_sublist _ _)
  have hsplit := List.countP_eq_countP_filter_add s.rows s.waits
    fun row => decide (row ∈ s.batch scan batchSize)
  have hbatch : (s.batch scan batchSize).length ≤
      (s.rows.filter fun row => decide (row ∈ s.batch scan batchSize)).countP s.waits := by
    have hall : (s.rows.filter fun row => decide (row ∈ s.batch scan batchSize)).countP s.waits =
        (s.rows.filter fun row => decide (row ∈ s.batch scan batchSize)).length := by
      refine List.countP_eq_length.mpr fun row hrow => ?_
      obtain ⟨-, hpending, hfree⟩ := mem_batch (of_decide_eq_true (List.mem_filter.mp hrow).2)
      unfold OutboxState.waits
      rw [hpending, Bool.and_eq_true, Bool.not_eq_true', List.any_eq_false]
      exact ⟨rfl, fun session hsession => by
        rw [not_handles_of_not_locked h hsession hfree]
        exact Bool.false_ne_true⟩
    rw [hall]
    refine List.Nodup.length_le_of_subset hnodup fun row hrow => ?_
    exact List.mem_filter.mpr ⟨(mem_batch hrow).1, decide_eq_true hrow⟩
  have hrest : s.rows.countP ({ s with sessions := s.sessions ++ [{
        claimed := (s.batch scan batchSize).map OutboxRow.id
        remaining := s.batch scan batchSize }] } : OutboxState).waits ≤
      (s.rows.filter fun row => !decide (row ∈ s.batch scan batchSize)).countP s.waits := by
    rw [List.countP_filter]
    refine List.countP_mono_left fun row _ hwaits => ?_
    unfold OutboxState.waits at hwaits ⊢
    rw [List.any_append, Bool.and_eq_true, Bool.not_eq_true', Bool.or_eq_false_iff] at hwaits
    rw [Bool.and_eq_true, Bool.and_eq_true, Bool.not_eq_true', Bool.not_eq_true',
      decide_eq_false_iff_not]
    refine ⟨⟨hwaits.1, hwaits.2.1⟩, fun hmem => ?_⟩
    have hnew := hwaits.2.2
    rw [List.any_cons, Bool.or_eq_false_iff] at hnew
    exact of_decide_eq_false hnew.1 (.inl (List.mem_map_of_mem hmem))
  omega

theorem handles_next (session : Session) {row : OutboxRow} {rest : List OutboxRow}
    (hremaining : session.remaining = row :: rest) (id : Id) :
    (session.next row rest none).handles id = session.handles id := by
  unfold Session.handles Session.next
  refine decide_eq_decide.mpr ?_
  rw [hremaining]
  simp only [List.map_cons, List.mem_cons, List.mem_append, Prod.mk.injEq, and_true,
    List.not_mem_nil, or_false]
  tauto

variable {sessions : List Session}

theorem any_set {n : ℕ} {session' : Session} (hsession : sessions[n]? = some session)
    {p : Session → Bool} (hp : p session' = p session) :
    (sessions.set n session').any p = sessions.any p := by
  induction sessions generalizing n with
  | nil => rfl
  | cons first sessions ih =>
      cases n with
      | zero =>
          cases hsession
          rw [List.set_cons_zero, List.any_cons, List.any_cons, hp]
      | succ n => rw [List.set_cons_succ, List.any_cons, List.any_cons, ih hsession]

theorem sum_set {n : ℕ} (hsession : sessions[n]? = some session) (session' : Session)
    (f : Session → ℕ) :
    ((sessions.set n session').map f).sum + f session = (sessions.map f).sum + f session' := by
  induction sessions generalizing n with
  | nil => cases hsession
  | cons first sessions ih =>
      cases n with
      | zero =>
          cases hsession
          simp only [List.set_cons_zero, List.map_cons, List.sum_cons]
          omega
      | succ n =>
          have hrest := ih hsession
          simp only [List.set_cons_succ, List.map_cons, List.sum_cons]
          omega

theorem sum_eraseIdx {n : ℕ} (hsession : sessions[n]? = some session) (f : Session → ℕ) :
    ((sessions.eraseIdx n).map f).sum + f session = (sessions.map f).sum := by
  induction sessions generalizing n with
  | nil => cases hsession
  | cons first sessions ih =>
      cases n with
      | zero =>
          cases hsession
          simp only [List.eraseIdx_cons_zero, List.map_cons, List.sum_cons]
          omega
      | succ n =>
          have hrest := ih hsession
          simp only [List.eraseIdx_cons_succ, List.map_cons, List.sum_cons]
          omega

theorem countP_waits_commit {n : ℕ} (hsession : s.sessions[n]? = some session)
    (hremaining : session.remaining = []) :
    (applyMarks session.marks s.rows).countP ({ s with
        rows := applyMarks session.marks s.rows
        sessions := s.sessions.eraseIdx n } : OutboxState).waits ≤ s.rows.countP s.waits := by
  rw [applyMarks_eq_map, List.countP_map]
  refine List.countP_mono_left fun row _ hwaits => ?_
  unfold OutboxState.waits at hwaits ⊢
  simp only [Function.comp_apply, Bool.and_eq_true, decide_eq_true_eq, Bool.not_eq_true',
    List.any_eq_false, id_markRow, status_markRow] at hwaits ⊢
  obtain ⟨hstatus, hothers⟩ := hwaits
  split at hstatus
  · cases hstatus
  · next hmark =>
      refine ⟨hstatus, fun session' hsession' => ?_⟩
      obtain ⟨m, hm, hget⟩ := List.mem_iff_getElem.mp hsession'
      by_cases hmn : m = n
      · subst hmn
        rw [List.getElem?_eq_getElem hm, Option.some.injEq, hget] at hsession
        rw [hsession]
        unfold Session.handles
        rw [hremaining, decide_eq_true_eq]
        rintro (hnil | hmarked)
        · exact List.not_mem_nil hnil
        · exact hmark hmarked
      · refine hothers session' ?_
        exact List.mem_eraseIdx_iff_getElem?.mpr ⟨m, hmn, by
          rw [List.getElem?_eq_getElem hm, hget]⟩

theorem work_lt_of_step (h : OutboxOk s) {l : OutboxEvent} (hl : IsQuiet batchSize l s)
    (hstep : step batchSize l s = some s') : s'.work < s.work := by
  obtain ⟨row, rfl, -⟩ | ⟨scan, rfl, rfl⟩ |
    ⟨n, session, row, rest, rfl, hsession, hremaining, rfl⟩ | ⟨n, e, session, row, rest, rfl, -⟩ |
    ⟨n, session, rfl, hsession, hremaining, rfl⟩ | ⟨n, rfl, -⟩ := step_cases hstep
  · exact absurd hl id
  · have hcount := countP_waits_poll batchSize h scan
    have hlength := List.length_pos_iff.mpr hl
    unfold OutboxState.work
    simp only [List.map_append, List.sum_append, List.map_cons, List.map_nil, List.sum_cons,
      List.sum_nil]
    omega
  · have hwaits : ({ s with
        sessions := s.sessions.set n (session.next row rest none)
        published := s.published ++ [row.id] } : OutboxState).waits = s.waits := by
      funext r
      unfold OutboxState.waits
      rw [any_set hsession (handles_next session hremaining r.id)]
    have hsum := sum_set hsession (session.next row rest none)
      fun session => session.remaining.length + 1
    have hleft : (session.next row rest none).remaining = rest := rfl
    rw [hleft, hremaining, List.length_cons] at hsum
    unfold OutboxState.work
    rw [hwaits]
    simp only
    omega
  · exact absurd hl id
  · have hcount := countP_waits_commit hsession hremaining
    have hsum := sum_eraseIdx hsession fun session => session.remaining.length + 1
    unfold OutboxState.work
    simp only
    omega
  · exact absurd hl id

theorem length_add_work_le (h : OutboxOk s) {ls : List OutboxEvent}
    (hreplay : (outboxMachine batchSize).replay (IsQuiet batchSize) ls s = some s') :
    ls.length + s'.work ≤ s.work := by
  induction ls generalizing s with
  | nil =>
      cases hreplay
      simp
  | cons l ls ih =>
      rw [Machine.replay, Option.ite_none_right_eq_some, Option.bind_eq_some_iff] at hreplay
      obtain ⟨hl, s₁, hs₁, hreplay⟩ := hreplay
      have hlt := work_lt_of_step h hl hs₁
      have hrest := ih (h.step hs₁) hreplay
      rw [List.length_cons]
      omega

theorem published_of_stuck (h : OutboxOk s)
    (hstuck : ∀ l, IsQuiet batchSize l s → step batchSize l s = none) :
    ∀ row ∈ s.rows, row.id ∈ s.published := by
  -- an open transaction could go on or commit
  have hsessions : s.sessions = [] := by
    cases hs : s.sessions with
    | nil => rfl
    | cons session sessions =>
        exfalso
        cases hremaining : session.remaining with
        | nil =>
            have hcommit := hstuck (.commit 0) trivial
            rw [step, hs] at hcommit
            simp [hremaining] at hcommit
        | cons row rest =>
            have hpublish := hstuck (.publish 0) trivial
            rw [step, hs] at hpublish
            simp [hremaining] at hpublish
  intro row hrow
  cases hstatus : row.status with
  | published => exact h.done row hrow hstatus
  | pending =>
      exfalso
      have hcandidate : row ∈ s.candidates := by
        refine List.mem_filter.mpr ⟨hrow, ?_⟩
        unfold OutboxState.isLocked
        rw [hsessions, hstatus]
        rfl
      have hpoll := hstuck (.poll (.stable outboxKey)) (by
        show s.batch (.stable outboxKey) batchSize ≠ []
        unfold OutboxState.batch
        intro hnil
        rw [List.take_eq_nil_iff] at hnil
        rcases hnil with hzero | hnil
        · exact absurd hzero (Nat.pos_iff_ne_zero.mp batchSize.pos)
        · have hperm := (KeyOrder.stable outboxKey).perm none s.candidates
          rw [hnil] at hperm
          rw [List.nil_perm.mp hperm] at hcandidate
          exact List.not_mem_nil hcandidate)
      cases hpoll

end progress

/-- In every undisturbed run the rows of one aggregate are first published in the order in which
they were written. In every run, once no publication fails and no more rows come, there are no more
events than the work there was, and where they end every row was published. -/
theorem relay_of_undisturbed (batchSize : BatchSize) :
    (∀ s, (outboxMachine batchSize).Reachable (Undisturbed batchSize) s → InOrder s) ∧
      ∀ s, (outboxMachine batchSize).Reachable Machine.anyEvent s → ∀ ls s',
        (outboxMachine batchSize).replay (IsQuiet batchSize) ls s = some s' →
          ls.length ≤ s.work ∧
            ((∀ l, IsQuiet batchSize l s' → step batchSize l s' = none) →
              ∀ row ∈ s'.rows, row.id ∈ s'.published) := by
  refine ⟨fun s hs => (orderOk_of_reachable hs).inOrder, fun s hs ls s' hreplay => ?_⟩
  have hok := outboxOk_of_reachable hs
  have hlength := length_add_work_le hok hreplay
  refine ⟨by omega, published_of_stuck ?_⟩
  refine Machine.Run.invariant (fun l _ _ h _ hstep => h.step hstep)
    (Machine.run_of_replay hreplay) hok

/-! ## Two Rows of a Book -/

def bookRow (id : Id) (createdAt : ℤ) : OutboxRow where
  id := id
  aggregateType := "book"
  aggregateId := 7
  createdAt := createdAt

def twoRows : BatchSize := ⟨2, by omega⟩

theorem relay_twoRows : ∃ s, (outboxMachine twoRows).Reachable (Undisturbed twoRows) s ∧
    s.published = [1, 2] ∧ InOrder s := by
  have hplay : ((outboxMachine twoRows).replay (Undisturbed twoRows)
      [.insert (bookRow 1 10), .insert (bookRow 2 20), .poll (.stable _), .publish 0, .publish 0,
        .commit 0] {}).map OutboxState.published = some [1, 2] := by decide +kernel
  obtain ⟨s, hrun, hpublished⟩ := Machine.exists_run_of_replay hplay
  exact ⟨s, ⟨{}, rfl, hrun⟩, hpublished,
    (relay_of_undisturbed twoRows).1 s ⟨{}, rfl, hrun⟩⟩

/-- The publication of the first row fails, and that of the second one of the book does not. -/
theorem not_forall_inOrder :
    ¬ ∀ s, (outboxMachine twoRows).Reachable Machine.anyEvent s → InOrder s := by
  intro h
  have hplay : ((outboxMachine twoRows).replay Machine.anyEvent
      [.insert (bookRow 1 10), .insert (bookRow 2 20), .poll (.stable _), .fail 0 "timeout",
        .publish 0] {}).map (fun s : OutboxState => (s.rows, s.published)) =
      some ([bookRow 1 10, bookRow 2 20], [2]) := by decide +kernel
  obtain ⟨s, hrun, hs⟩ := Machine.exists_run_of_replay hplay
  rw [Prod.mk.injEq] at hs
  have hfirst := (h s ⟨{}, rfl, hrun⟩ (bookRow 1 10) (hs.1 ▸ List.mem_cons_self) (bookRow 2 20)
    (hs.1 ▸ List.mem_cons_of_mem _ List.mem_cons_self) (by decide)
    (hs.2 ▸ List.mem_cons_self)).1
  rw [hs.2] at hfirst
  exact absurd hfirst (by decide)

end AudioBook.Outbox
