import AudioBook.Events.EventStream

/-!
# What a Connection Delivers

A connection writes every public event after its start once and in order, if the timestamps of the
events are whole milliseconds, no event is committed behind the cursor, and no poll goes on with
rows that another one has written or has passed, or that lack an event committed meanwhile.

- `ExactlyOnce`: what was written, and what is left for the next polls.
- `InStep`: the events of such runs.
- `exactlyOnce_of_inStep`: in these runs it holds, and polls that are left alone write all.
-/

namespace AudioBook.EventStream

open Concurrent Keyset

/-- The row comes after the start of the connection. -/
def AfterStart (start : StartPosition) (row : OutboxTailRow) : Prop :=
  match start.anchor with
  | some anchor => position anchor < position row
  | none => start.now < row.createdAt

instance (start : StartPosition) (row : OutboxTailRow) : Decidable (AfterStart start row) :=
  match start with
  | ⟨some anchor, _⟩ => inferInstanceAs (Decidable (position anchor < position row))
  | ⟨none, now⟩ => inferInstanceAs (Decidable (now < row.createdAt))

/-- The connection is to write the row. -/
def Wanted (scope : StreamScope) (start : StartPosition) (row : OutboxTailRow) : Prop :=
  scope.covers row = true ∧ isPublicEvent row.eventType = true ∧ AfterStart start row

instance (scope : StreamScope) (start : StartPosition) (row : OutboxTailRow) :
    Decidable (Wanted scope start row) := inferInstanceAs (Decidable (_ ∧ _ ∧ _))

/-- Only what the connection is to write was written, once and in order, and what was not is ahead
of the cursor. -/
def ExactlyOnce (scope : StreamScope) (s : StreamState) : Prop :=
  ∀ c ∈ s.connection,
    c.written.Pairwise (fun a b => position a < position b) ∧
    (∀ row ∈ c.written, row ∈ s.rows ∧ Wanted scope c.start row) ∧
    ∀ row ∈ s.rows, Wanted scope c.start row → row ∈ c.written ∨ c.cursor.selects row = true

/-- The cursor still selects the public ones of the rows of a poll, nothing was written that comes
after the last one, and every wanted event that the cursor selects up to the last one is among
them. -/
def FollowsOn (scope : StreamScope) (table : List OutboxTailRow) (c : Connection)
    (rows : List OutboxTailRow) : Prop :=
  (∀ row ∈ rows, isPublicEvent row.eventType = true → c.cursor.selects row = true) ∧
  ∀ last ∈ rows.getLast?, (∀ row ∈ c.written, position row < position last) ∧
    ∀ row ∈ table, Wanted scope c.start row → c.cursor.selects row = true →
      position row ≤ position last → row ∈ rows

instance (scope : StreamScope) (table : List OutboxTailRow) (c : Connection)
    (rows : List OutboxTailRow) : Decidable (FollowsOn scope table c rows) :=
  inferInstanceAs (Decidable (_ ∧ _))

/-- Timestamps are whole milliseconds, of the events of the scope and of the one that is resumed
from. A wanted event is committed ahead of the cursor. A poll goes on with rows that follow on what
was written. -/
def InStep (config : EventStreamConfig) (scope : StreamScope) : StreamEvent → StreamState → Prop
  | .commit new, s => ∀ row ∈ new, scope.covers row = true → 1000 ∣ row.createdAt ∧
      ∀ c ∈ s.connection, Wanted scope c.start row → c.cursor.selects row = true
  | .connect lastEventId now, s => ∀ anchor ∈ resumedFrom config lastEventId now s.rows,
      1000 ∣ anchor.createdAt
  | .deliver n, s => ∀ c ∈ s.connection, ∀ poll ∈ c.polls[n]?, ∀ rows ∈ poll.rows,
      FollowsOn scope s.rows c rows
  | .tick, _ | .read _, _ | .fail _, _ => True

instance (config : EventStreamConfig) (scope : StreamScope) (l : StreamEvent) (s : StreamState) :
    Decidable (InStep config scope l s) :=
  match l with
  | .commit new => inferInstanceAs (Decidable (∀ row ∈ new, scope.covers row = true →
      1000 ∣ row.createdAt ∧
        ∀ c ∈ s.connection, Wanted scope c.start row → c.cursor.selects row = true))
  | .connect lastEventId now => inferInstanceAs (Decidable
      (∀ anchor ∈ resumedFrom config lastEventId now s.rows, 1000 ∣ anchor.createdAt))
  | .deliver n => inferInstanceAs (Decidable (∀ c ∈ s.connection, ∀ poll ∈ c.polls[n]?,
      ∀ rows ∈ poll.rows, FollowsOn scope s.rows c rows))
  | .tick | .read _ | .fail _ => isTrue trivial

/-! ## Cursors -/

theorem position_lt_iff {a b : OutboxTailRow} : position a < position b ↔
    a.createdAt < b.createdAt ∨ a.createdAt = b.createdAt ∧ a.eventId < b.eventId :=
  Prod.Lex.toLex_lt_toLex

theorem selects_cursor_iff {last row : OutboxTailRow} (hwhole : 1000 ∣ last.createdAt) :
    last.cursor.selects row = true ↔ position last < position row := by
  have hdate : 1000 * toDate last.createdAt = last.createdAt := Int.mul_ediv_cancel' hwhole
  rw [position_lt_iff]
  show (_ || _) = true ↔ _
  rw [Bool.or_eq_true, Bool.and_eq_true, decide_eq_true_eq, decide_eq_true_eq, decide_eq_true_eq]
  show 1000 * toDate last.createdAt < _ ∨ _ = 1000 * toDate last.createdAt ∧ _ ↔ _
  rw [hdate, eq_comm (a := row.createdAt)]

theorem position_lt_of_selects {cursor : StreamCursor} {a b : OutboxTailRow}
    (ha : cursor.selects a = false) (hb : cursor.selects b = true) : position a < position b := by
  rw [position_lt_iff]
  unfold StreamCursor.selects at ha hb
  cases hid : cursor.eventId with
  | none =>
      rw [hid] at ha hb
      have ha' := of_decide_eq_false ha
      have hb' := of_decide_eq_true hb
      exact .inl (by omega)
  | some eventId =>
      simp only [hid, Bool.or_eq_false_iff, Bool.and_eq_false_iff, decide_eq_false_iff_not] at ha
      simp only [hid, Bool.or_eq_true, Bool.and_eq_true, decide_eq_true_eq] at hb
      by_cases heq : a.createdAt = b.createdAt
      · refine .inr ⟨heq, ?_⟩
        rcases hb with hlt | ⟨hb, hidb⟩
        · exact absurd (heq ▸ hlt) ha.1
        · rcases ha.2 with hne | hida
          · exact absurd (heq.trans hb) hne
          · exact lt_of_le_of_lt (not_lt.mp hida) hidb
      · exact .inl (by omega)

theorem selects_of_position_lt {cursor : StreamCursor} {a b : OutboxTailRow}
    (ha : cursor.selects a = true) (hlt : position a < position b) : cursor.selects b = true := by
  by_contra hb
  rw [Bool.not_eq_true] at hb
  exact lt_asymm hlt (position_lt_of_selects hb ha)

theorem afterStart_of_position_lt {start : StartPosition} {a b : OutboxTailRow}
    (ha : AfterStart start a) (hlt : position a < position b) : AfterStart start b := by
  unfold AfterStart at ha ⊢
  split at ha
  · exact lt_trans ha hlt
  · rw [position_lt_iff] at hlt
    omega

/-! ## The Rows of a Poll -/

section readTail

variable {config : EventStreamConfig} {scope : StreamScope} {cursor : StreamCursor}
  {rows : List OutboxTailRow}

theorem mem_readTail {row : OutboxTailRow} (h : row ∈ readTail config scope cursor rows) :
    row ∈ rows ∧ scope.covers row = true ∧ cursor.selects row = true := by
  have hmem := (List.perm_insertionSort _ _).subset (List.mem_of_mem_take h)
  obtain ⟨hrow, hselects⟩ := List.mem_filter.mp hmem
  exact ⟨hrow, Bool.and_eq_true_iff.mp hselects⟩

theorem position_lt_of_le {a b : OutboxTailRow} (hne : a.eventId ≠ b.eventId)
    (hle : position a ≤ position b) : position a < position b :=
  lt_of_le_of_ne hle fun heq => hne (Prod.ext_iff.mp (toLex.injective heq)).2

theorem pairwise_tail (hids : (rows.map OutboxTailRow.eventId).Nodup) (p : OutboxTailRow → Bool) :
    ((rows.filter p).insertionSort fun a b => position a ≤ position b).Pairwise
      fun a b => position a < position b := by
  have hsorted := pairwise_sort position (rows.filter p)
  have hnodup : (((rows.filter p).insertionSort fun a b => position a ≤ position b).map
      OutboxTailRow.eventId).Nodup := by
    refine ((List.perm_insertionSort _ _).map _).nodup_iff.mpr ?_
    exact hids.sublist (List.filter_sublist.map _)
  rw [List.Nodup, List.pairwise_map] at hnodup
  exact hsorted.imp₂ (fun _ _ hle hne => position_lt_of_le hne hle) hnodup

theorem pairwise_readTail (hids : (rows.map OutboxTailRow.eventId).Nodup) :
    (readTail config scope cursor rows).Pairwise fun a b => position a < position b :=
  (pairwise_tail hids _).sublist (List.take_sublist _ _)

theorem mem_readTail_of_le (hids : (rows.map OutboxTailRow.eventId).Nodup)
    {last row : OutboxTailRow} (hlast : last ∈ readTail config scope cursor rows)
    (hrow : row ∈ rows) (hcovers : scope.covers row = true) (hselects : cursor.selects row = true)
    (hle : position row ≤ position last) : row ∈ readTail config scope cursor rows := by
  have hsorted := pairwise_tail hids fun row => scope.covers row && cursor.selects row
  have hmem : row ∈ (rows.filter fun row => scope.covers row && cursor.selects row).insertionSort
      fun a b => position a ≤ position b := by
    refine (List.perm_insertionSort _ _).symm.subset (List.mem_filter.mpr ⟨hrow, ?_⟩)
    rw [hcovers, hselects]
    rfl
  unfold readTail at hlast ⊢
  rw [← List.take_append_drop config.batchSize (List.insertionSort _ _)] at hsorted hmem
  rcases List.mem_append.mp hmem with hmem | hmem
  · exact hmem
  · exact absurd hle (not_le_of_gt ((List.pairwise_append.mp hsorted).2.2 last hlast row hmem))

theorem readTail_eq_nil_iff :
    readTail config scope cursor rows = [] ↔
      ∀ row ∈ rows, scope.covers row = true → cursor.selects row = false := by
  unfold readTail
  rw [List.take_eq_nil_iff]
  have hpos : config.batchSize ≠ 0 := Nat.pos_iff_ne_zero.mp config.batchSize_pos
  constructor
  · rintro (hzero | hnil) row hrow hcovers
    · exact absurd hzero hpos
    · have hempty := (List.perm_insertionSort (fun a b => position a ≤ position b)
        (rows.filter fun row => scope.covers row && cursor.selects row)).symm
      rw [hnil] at hempty
      have hnone := List.filter_eq_nil_iff.mp (List.perm_nil.mp hempty) row hrow
      rw [hcovers, Bool.true_and, Bool.not_eq_true] at hnone
      exact hnone
  · intro hnone
    right
    have hempty : (rows.filter fun row => scope.covers row && cursor.selects row) = [] := by
      refine List.filter_eq_nil_iff.mpr fun row hrow hboth => ?_
      rw [Bool.and_eq_true] at hboth
      rw [hnone row hrow hboth.1] at hboth
      exact Bool.false_ne_true hboth.2
    rw [hempty]
    rfl

end readTail

/-! ## Runs -/

/-- What a poll has read. -/
structure PollOk (scope : StreamScope) (rows : List OutboxTailRow) (start : StartPosition)
    (poll : Poll) : Prop where
  start : ∀ row, 1000 ∣ row.createdAt → poll.cursor.selects row = true → AfterStart start row
  mem : ∀ read ∈ poll.rows, ∀ row ∈ read, row ∈ rows ∧ scope.covers row = true ∧
    poll.cursor.selects row = true
  pairwise : ∀ read ∈ poll.rows, read.Pairwise fun a b => position a < position b

/-- What holds of the connection in such a run. -/
structure ConnectionOk (scope : StreamScope) (rows : List OutboxTailRow) (c : Connection) :
    Prop where
  pairwise : c.written.Pairwise fun a b => position a < position b
  wanted : ∀ row ∈ c.written, row ∈ rows ∧ Wanted scope c.start row
  behind : ∀ row ∈ c.written, c.cursor.selects row = false
  ahead : ∀ row ∈ rows, Wanted scope c.start row → row ∈ c.written ∨ c.cursor.selects row = true
  start : ∀ row, 1000 ∣ row.createdAt → c.cursor.selects row = true → AfterStart c.start row
  polls : ∀ poll ∈ c.polls, PollOk scope rows c.start poll

/-- What holds in such a run. -/
structure StreamOk (scope : StreamScope) (s : StreamState) : Prop where
  ids : (s.rows.map OutboxTailRow.eventId).Nodup
  whole : ∀ row ∈ s.rows, scope.covers row = true → 1000 ∣ row.createdAt
  connection : ∀ c ∈ s.connection, ConnectionOk scope s.rows c

section runs

variable {config : EventStreamConfig} {scope : StreamScope} {s s' : StreamState}

theorem StreamOk.exactlyOnce (h : StreamOk scope s) : ExactlyOnce scope s := fun c hc =>
  ⟨(h.connection c hc).pairwise, (h.connection c hc).wanted, (h.connection c hc).ahead⟩

variable {rows : List OutboxTailRow}

theorem PollOk.mono {new : List OutboxTailRow} {start : StartPosition} {poll : Poll}
    (h : PollOk scope rows start poll) : PollOk scope (rows ++ new) start poll :=
  ⟨h.start, fun read hread row hrow =>
    ⟨List.mem_append_left _ (h.mem read hread row hrow).1, (h.mem read hread row hrow).2⟩,
    h.pairwise⟩

variable {c : Connection}

theorem ConnectionOk.commit {new : List OutboxTailRow} (h : ConnectionOk scope rows c)
    (hnew : ∀ row ∈ new, Wanted scope c.start row → c.cursor.selects row = true) :
    ConnectionOk scope (rows ++ new) c := by
  refine ⟨h.pairwise, fun row hrow => ⟨List.mem_append_left _ (h.wanted row hrow).1,
    (h.wanted row hrow).2⟩, h.behind, fun row hrow hwanted => ?_, h.start,
    fun poll hpoll => (h.polls poll hpoll).mono⟩
  rcases List.mem_append.mp hrow with hrow | hrow
  · exact h.ahead row hrow hwanted
  · exact .inr (hnew row hrow hwanted)

theorem resolveStartCursor_cases (config : EventStreamConfig) (lastEventId : Option Id) (now : ℤ)
    (rows : List OutboxTailRow) :
    ((resolveStartCursor config lastEventId now rows).1 = ⟨toDate now, none⟩ ∧
      resumedFrom config lastEventId now rows = none) ∨
    ∃ anchor, (resolveStartCursor config lastEventId now rows).1 = anchor.cursor ∧
      resumedFrom config lastEventId now rows = some anchor := by
  unfold resumedFrom
  cases lastEventId with
  | none => exact .inl ⟨rfl, rfl⟩
  | some lastEventId =>
      unfold resolveStartCursor
      dsimp only
      split
      · exact .inl ⟨rfl, rfl⟩
      · next anchor hfind =>
          split
          · exact .inl ⟨rfl, rfl⟩
          · have hid := List.find?_some hfind
            rw [decide_eq_true_eq] at hid
            refine .inr ⟨anchor, rfl, ?_⟩
            show (rows.find? fun row => decide (row.eventId = anchor.eventId)) = some anchor
            rw [hid]
            exact hfind

theorem selects_resolveStartCursor_iff {lastEventId : Option Id} {now : ℤ}
    (hanchor : ∀ anchor ∈ resumedFrom config lastEventId now rows, 1000 ∣ anchor.createdAt)
    {row : OutboxTailRow} (hwhole : 1000 ∣ row.createdAt) :
    (resolveStartCursor config lastEventId now rows).1.selects row = true ↔
      AfterStart ⟨resumedFrom config lastEventId now rows, now⟩ row := by
  obtain ⟨hcursor, hresumed⟩ | ⟨anchor, hcursor, hresumed⟩ :=
    resolveStartCursor_cases config lastEventId now rows
  · rw [hcursor, hresumed]
    show decide (1000 * (now / 1000) < row.createdAt) = true ↔ now < row.createdAt
    -- a whole timestamp after the milliseconds of a time is after the time
    rw [decide_eq_true_eq]
    omega
  · rw [hcursor, hresumed]
    exact selects_cursor_iff (hanchor anchor hresumed)

theorem ConnectionOk.deliver (h : ConnectionOk scope rows c)
    (hwhole : ∀ row ∈ rows, scope.covers row = true → 1000 ∣ row.createdAt) {n : ℕ} {poll : Poll}
    (hpoll : c.polls[n]? = some poll) {read : List OutboxTailRow} (hread : poll.rows = some read)
    (hfollows : FollowsOn scope rows c read) : ConnectionOk scope rows (c.deliver n read) := by
  have hok := h.polls poll (List.mem_of_getElem? hpoll)
  have hmem := hok.mem read hread
  have hpairwise := hok.pairwise read hread
  have hothers : ∀ poll ∈ c.polls.eraseIdx n, PollOk scope rows c.start poll :=
    fun poll hpoll => h.polls poll (List.mem_of_mem_eraseIdx hpoll)
  have hwanted : ∀ row ∈ read.filter fun row => isPublicEvent row.eventType,
      row ∈ rows ∧ Wanted scope c.start row := by
    intro row hrow
    obtain ⟨hrow, hpublic⟩ := List.mem_filter.mp hrow
    obtain ⟨htable, hcovers, hselects⟩ := hmem row hrow
    exact ⟨htable, hcovers, hpublic, hok.start row (hwhole row htable hcovers) hselects⟩
  have hordered : (c.written ++ read.filter fun row => isPublicEvent row.eventType).Pairwise
      fun a b => position a < position b := by
    refine List.pairwise_append.mpr ⟨h.pairwise, hpairwise.sublist List.filter_sublist, ?_⟩
    intro a ha b hb
    obtain ⟨hb, hpublic⟩ := List.mem_filter.mp hb
    exact position_lt_of_selects (h.behind a ha) (hfollows.1 b hb hpublic)
  cases hlast : read.getLast? with
  | none =>
      -- a poll that has read nothing leaves the cursor
      rw [List.getLast?_eq_none_iff] at hlast
      subst hlast
      refine ⟨hordered, ?_, ?_, ?_, h.start, hothers⟩
      · simpa [Connection.deliver] using h.wanted
      · simpa [Connection.deliver] using h.behind
      · simpa [Connection.deliver] using h.ahead
  | some last =>
      obtain ⟨init, rfl⟩ := List.getLast?_eq_some_iff.mp hlast
      obtain ⟨hwritten, hcomplete⟩ := hfollows.2 last hlast
      have hlastmem : last ∈ init ++ [last] := List.mem_append_right _ (List.mem_singleton_self _)
      obtain ⟨htable, hcovers, hselects⟩ := hmem last hlastmem
      have hdvd := hwhole last htable hcovers
      have hcursor : (c.deliver n (init ++ [last])).cursor = last.cursor := by
        unfold Connection.deliver
        rw [hlast]
        rfl
      have hle : ∀ row ∈ init ++ [last], position row ≤ position last := by
        intro row hrow
        rcases List.mem_append.mp hrow with hrow | hrow
        · exact le_of_lt ((List.pairwise_append.mp hpairwise).2.2 row hrow last
            (List.mem_singleton_self _))
        · rw [List.mem_singleton.mp hrow]
      refine ⟨hordered, ?_, ?_, ?_, ?_, hothers⟩
      · intro row hrow
        rcases List.mem_append.mp hrow with hrow | hrow
        · exact h.wanted row hrow
        · exact hwanted row hrow
      · intro row hrow
        rw [hcursor, ← Bool.not_eq_true, selects_cursor_iff hdvd, not_lt]
        rcases List.mem_append.mp hrow with hrow | hrow
        · exact le_of_lt (hwritten row hrow)
        · exact hle row (List.mem_filter.mp hrow).1
      · intro row hrow hrowWanted
        rw [hcursor, selects_cursor_iff hdvd]
        rcases lt_or_ge (position last) (position row) with hlt | hge
        · exact .inr hlt
        · refine .inl ?_
          rcases h.ahead row hrow hrowWanted with hdone | hahead
          · exact List.mem_append_left _ hdone
          · exact List.mem_append_right _ (List.mem_filter.mpr
              ⟨hcomplete row hrow hrowWanted hahead hge, hrowWanted.2.1⟩)
      · intro row _ hrow
        rw [hcursor, selects_cursor_iff hdvd] at hrow
        exact afterStart_of_position_lt (hok.start last hdvd hselects) hrow

theorem step_cases {l : StreamEvent} (h : step config scope l s = some s') :
    (∃ new, l = .commit new ∧ ((s.rows ++ new).map OutboxTailRow.eventId).Nodup ∧
      s' = { s with rows := s.rows ++ new }) ∨
    (∃ lastEventId now, l = .connect lastEventId now ∧ s' = { s with connection := some {
      cursor := (resolveStartCursor config lastEventId now s.rows).1
      resync := (resolveStartCursor config lastEventId now s.rows).2
      start := ⟨resumedFrom config lastEventId now s.rows, now⟩ } }) ∨
    (∃ c, l = .tick ∧ s.connection = some c ∧ s' = { s with connection := some {
      c with polls := c.polls ++ [{ cursor := c.cursor }] } }) ∨
    (∃ n c cursor, l = .read n ∧ s.connection = some c ∧ c.polls[n]? = some ⟨cursor, none⟩ ∧
      s' = { s with connection := some { c with
        polls := c.polls.set n ⟨cursor, some (readTail config scope cursor s.rows)⟩ } }) ∨
    (∃ n c cursor rows, l = .deliver n ∧ s.connection = some c ∧
      c.polls[n]? = some ⟨cursor, some rows⟩ ∧
      s' = { s with connection := some (c.deliver n rows) }) ∨
    (∃ n c, l = .fail n ∧ s.connection = some c ∧
      s' = { s with connection := some { c with polls := c.polls.eraseIdx n } }) := by
  obtain ⟨rows, connection⟩ := s
  cases l with
  | commit new =>
      rw [step, Option.ite_none_right_eq_some] at h
      exact .inl ⟨new, rfl, h.1, (Option.some.inj h.2).symm⟩
  | connect lastEventId now =>
      cases connection with
      | none => exact .inr (.inl ⟨lastEventId, now, rfl, (Option.some.inj h).symm⟩)
      | some c => cases h
  | tick =>
      cases connection with
      | none => cases h
      | some c => exact .inr (.inr (.inl ⟨c, rfl, rfl, (Option.some.inj h).symm⟩))
  | read n =>
      cases connection with
      | none => cases h
      | some c =>
          simp only [step] at h
          split at h
          · next cursor hpoll =>
              exact .inr (.inr (.inr (.inl ⟨n, c, cursor, rfl, rfl, hpoll,
                (Option.some.inj h).symm⟩)))
          · cases h
  | deliver n =>
      cases connection with
      | none => cases h
      | some c =>
          simp only [step] at h
          split at h
          · next cursor rows hpoll =>
              exact .inr (.inr (.inr (.inr (.inl ⟨n, c, cursor, rows, rfl, rfl, hpoll,
                (Option.some.inj h).symm⟩))))
          · cases h
  | fail n =>
      cases connection with
      | none => cases h
      | some c =>
          simp only [step, Option.ite_none_right_eq_some] at h
          exact .inr (.inr (.inr (.inr (.inr ⟨n, c, rfl, rfl, (Option.some.inj h.2).symm⟩))))

theorem StreamOk.step (h : StreamOk scope s) {l : StreamEvent} (hl : InStep config scope l s)
    (hstep : step config scope l s = some s') : StreamOk scope s' := by
  obtain ⟨new, rfl, hids, rfl⟩ | ⟨lastEventId, now, rfl, rfl⟩ | ⟨c, rfl, hc, rfl⟩ |
    ⟨n, c, cursor, rfl, hc, hpoll, rfl⟩ | ⟨n, c, cursor, rows, rfl, hc, hpoll, rfl⟩ |
    ⟨n, c, rfl, hc, rfl⟩ := step_cases hstep
  · refine ⟨hids, fun row hrow hcovers => ?_, fun c hc => ?_⟩
    · rcases List.mem_append.mp hrow with hrow | hrow
      · exact h.whole row hrow hcovers
      · exact (hl row hrow hcovers).1
    · exact (h.connection c hc).commit fun row hrow hwanted =>
        (hl row hrow hwanted.1).2 c hc hwanted
  · refine ⟨h.ids, h.whole, ?_⟩
    rintro _ ⟨⟩
    refine ⟨List.Pairwise.nil, by simp, by simp, fun row hrow hwanted => .inr ?_,
      fun row hwhole hselects => ?_, by simp⟩
    · exact (selects_resolveStartCursor_iff hl (h.whole row hrow hwanted.1)).mpr hwanted.2.2
    · exact (selects_resolveStartCursor_iff hl hwhole).mp hselects
  · have hok := h.connection c hc
    refine ⟨h.ids, h.whole, ?_⟩
    rintro _ ⟨⟩
    refine ⟨hok.pairwise, hok.wanted, hok.behind, hok.ahead, hok.start, ?_⟩
    rw [List.forall_mem_append, List.forall_mem_singleton]
    exact ⟨hok.polls, hok.start, by simp, by simp⟩
  · have hok := h.connection c hc
    have hread := hok.polls _ (List.mem_of_getElem? hpoll)
    refine ⟨h.ids, h.whole, ?_⟩
    rintro _ ⟨⟩
    refine ⟨hok.pairwise, hok.wanted, hok.behind, hok.ahead, hok.start, fun poll hmem => ?_⟩
    rcases List.mem_or_eq_of_mem_set hmem with hmem | rfl
    · exact hok.polls poll hmem
    · refine ⟨hread.start, ?_, ?_⟩
      · rintro _ ⟨⟩ row hrow
        exact mem_readTail hrow
      · rintro _ ⟨⟩
        exact pairwise_readTail h.ids
  · refine ⟨h.ids, h.whole, ?_⟩
    rintro _ ⟨⟩
    exact (h.connection c hc).deliver h.whole hpoll rfl (hl c hc _ hpoll rows rfl)
  · have hok := h.connection c hc
    refine ⟨h.ids, h.whole, ?_⟩
    rintro _ ⟨⟩
    exact ⟨hok.pairwise, hok.wanted, hok.behind, hok.ahead, hok.start,
      fun poll hpoll => hok.polls poll (List.mem_of_mem_eraseIdx hpoll)⟩

theorem streamOk_of_reachable
    (h : (streamMachine config scope).Reachable (InStep config scope) s) : StreamOk scope s := by
  refine h.invariant (fun s hinit => ?_) fun _ _ _ hok hl hstep => hok.step hl hstep
  rw [show s = {} from hinit]
  exact ⟨List.nodup_nil, by simp, by simp⟩

/-! ## Polls That Are Left Alone -/

/-- A poll between two ticks. -/
def pollAlone : List StreamEvent := [.tick, .read 0, .deliver 0]

def ahead (scope : StreamScope) (rows : List OutboxTailRow) (cursor : StreamCursor) :
    List OutboxTailRow :=
  rows.filter fun row => scope.covers row && cursor.selects row

def Connection.afterPoll (config : EventStreamConfig) (scope : StreamScope)
    (rows : List OutboxTailRow) (c : Connection) : Connection :=
  { c.deliver 0 (readTail config scope c.cursor rows) with polls := [] }

variable (config) in
theorem ConnectionOk.followsOn (h : ConnectionOk scope rows c)
    (hids : (rows.map OutboxTailRow.eventId).Nodup) :
    FollowsOn scope rows c (readTail config scope c.cursor rows) := by
  refine ⟨fun row hrow _ => (mem_readTail hrow).2.2, fun last hlast => ?_⟩
  have hmem := List.mem_of_getLast? hlast
  refine ⟨fun row hrow => position_lt_of_selects (h.behind row hrow) (mem_readTail hmem).2.2,
    fun row hrow hwanted hselects hle => ?_⟩
  exact mem_readTail_of_le hids hmem hrow hwanted.1 hselects hle

variable (config) in
theorem replay_pollAlone (h : StreamOk scope s) (hc : s.connection = some c) (hpolls : c.polls = []) :
    (streamMachine config scope).replay (InStep config scope) pollAlone s =
      some { s with connection := some (c.afterPoll config scope s.rows) } := by
  have hfollows := (h.connection c hc).followsOn config h.ids
  obtain ⟨rows, connection⟩ := s
  obtain ⟨cursor, resync, polls, written, start⟩ := c
  cases hc
  cases hpolls
  unfold pollAlone
  rw [Machine.replay_cons (by exact trivial) rfl, Machine.replay_cons (by exact trivial) rfl,
    Machine.replay_cons ?_ rfl]
  · rfl
  · rintro _ ⟨⟩ _ ⟨⟩ _ ⟨⟩
    exact hfollows

variable (config) in
theorem length_ahead_afterPoll (h : StreamOk scope s) (c : Connection) :
    (ahead scope s.rows (c.afterPoll config scope s.rows).cursor).length ≤
      (ahead scope s.rows c.cursor).length - 1 := by
  by_cases hread : readTail config scope c.cursor s.rows = []
  · have hahead : ahead scope s.rows c.cursor = [] := by
      refine List.filter_eq_nil_iff.mpr fun row hrow hboth => ?_
      rw [Bool.and_eq_true] at hboth
      rw [readTail_eq_nil_iff.mp hread row hrow hboth.1] at hboth
      exact Bool.false_ne_true hboth.2
    have hcursor : (c.afterPoll config scope s.rows).cursor = c.cursor := by
      show ((readTail config scope c.cursor s.rows).getLast?.map OutboxTailRow.cursor).getD _ = _
      rw [hread]
      rfl
    rw [hcursor, hahead, List.length_nil]
  obtain ⟨last, hlast⟩ : ∃ last, (readTail config scope c.cursor s.rows).getLast? = some last :=
    ⟨_, List.getLast?_eq_some_getLast hread⟩
  have hmem := mem_readTail (List.mem_of_getLast? hlast)
  have hdvd := h.whole last hmem.1 hmem.2.1
  have hcursor : (c.afterPoll config scope s.rows).cursor = last.cursor := by
    show ((readTail config scope c.cursor s.rows).getLast?.map OutboxTailRow.cursor).getD _ = _
    rw [hlast]
    rfl
  -- what is after the last row was selected before, and the last row is not selected any more
  have hsub : ahead scope s.rows last.cursor =
      (ahead scope s.rows c.cursor).filter last.cursor.selects := by
    unfold ahead
    rw [List.filter_filter]
    refine List.filter_congr fun row _ => ?_
    rw [Bool.eq_iff_iff]
    simp only [Bool.and_eq_true]
    constructor
    · rintro ⟨hcovers, hselects⟩
      have hlt := (selects_cursor_iff hdvd).mp hselects
      exact ⟨hselects, hcovers, selects_of_position_lt hmem.2.2 hlt⟩
    · rintro ⟨hselects, hcovers, -⟩
      exact ⟨hcovers, hselects⟩
  refine Nat.le_sub_one_of_lt ?_
  rw [hcursor, hsub, List.length_filter_lt_length_iff_exists]
  refine ⟨last, List.mem_filter.mpr ⟨hmem.1, ?_⟩, ?_⟩
  · rw [hmem.2.1, hmem.2.2]
    rfl
  · rw [selects_cursor_iff hdvd]
    exact lt_irrefl _

theorem exists_replay_pollAlone (config : EventStreamConfig) {n : ℕ} (h : StreamOk scope s)
    (hc : s.connection = some c) (hpolls : c.polls = [])
    (hn : (ahead scope s.rows c.cursor).length ≤ n) :
    ∃ c', (streamMachine config scope).replay (InStep config scope)
        (List.replicate n pollAlone).flatten s = some { s with connection := some c' } ∧
      ∀ row ∈ s.rows, Wanted scope c.start row → row ∈ c'.written := by
  induction n generalizing s c with
  | zero =>
      refine ⟨c, ?_, fun row hrow hwanted => ?_⟩
      · obtain ⟨rows, connection⟩ := s
        cases hc
        rfl
      · rcases (h.connection c hc).ahead row hrow hwanted with hdone | hselects
        · exact hdone
        · have hmem : row ∈ ahead scope s.rows c.cursor := by
            refine List.mem_filter.mpr ⟨hrow, ?_⟩
            rw [hwanted.1, hselects]
            rfl
          rw [List.length_eq_zero_iff.mp (Nat.le_zero.mp hn)] at hmem
          exact absurd hmem List.not_mem_nil
  | succ n ih =>
      have hreplay := replay_pollAlone config h hc hpolls
      have hok : StreamOk scope { s with connection := some (c.afterPoll config scope s.rows) } :=
        Machine.Run.invariant (fun _ _ _ hok hl hstep => hok.step hl hstep)
          (Machine.run_of_replay hreplay) h
      have hlt : (ahead scope s.rows (c.afterPoll config scope s.rows).cursor).length ≤ n := by
        have hdecrease := length_ahead_afterPoll config h c
        omega
      obtain ⟨c', hrest, hwritten⟩ := ih hok rfl rfl hlt
      refine ⟨c', ?_, hwritten⟩
      rw [List.replicate_succ, List.flatten_cons, Machine.replay_append hreplay]
      exact hrest

end runs

/-- In every run whose events are in step, what was written are events that the connection is to
write, once and in order, and the others are still to come. Polls that are left alone, as many as
there are rows, then write all of them. -/
theorem exactlyOnce_of_inStep (config : EventStreamConfig) (scope : StreamScope) :
    ∀ s, (streamMachine config scope).Reachable (InStep config scope) s →
      ExactlyOnce scope s ∧ ∀ c, s.connection = some c → c.polls = [] →
        ∃ c', (streamMachine config scope).replay (InStep config scope)
            (List.replicate s.rows.length pollAlone).flatten s =
              some { s with connection := some c' } ∧
          ∀ row ∈ s.rows, Wanted scope c.start row → row ∈ c'.written := by
  intro s hs
  have hok := streamOk_of_reachable hs
  exact ⟨hok.exactlyOnce, fun c hc hpolls =>
    exists_replay_pollAlone config hok hc hpolls (List.length_filter_le _ _)⟩

/-! ## A Book That Was Parsed -/

/-- The stream of a book, ten rows a poll. -/
def bookScope : StreamScope := ⟨1, .book, 7⟩

def tenRows : EventStreamConfig := ⟨60 * 60 * 1000, 10, by omega⟩

def bookParsed (createdAt : ℤ) : OutboxTailRow where
  eventId := 3
  eventType := "book.parsed"
  tenantId := 1
  bookId := some 7
  createdAt := createdAt

theorem exactlyOnce_bookParsed : ∃ s,
    (streamMachine tenRows bookScope).Reachable (InStep tenRows bookScope) s ∧
      s.connection.map Connection.written = some [bookParsed 5000] ∧ ExactlyOnce bookScope s := by
  have hplay : ((streamMachine tenRows bookScope).replay (InStep tenRows bookScope)
      (.connect none 4100 :: .commit [bookParsed 5000] :: pollAlone) {}).map
        (fun s => s.connection.map Connection.written) = some (some [bookParsed 5000]) := by
    decide +kernel
  obtain ⟨s, hrun, hwritten⟩ := Machine.exists_run_of_replay hplay
  exact ⟨s, ⟨{}, rfl, hrun⟩, hwritten,
    (exactlyOnce_of_inStep tenRows bookScope s ⟨{}, rfl, hrun⟩).1⟩

/-- An event between two milliseconds is written by every poll. -/
theorem not_forall_exactlyOnce :
    ¬ ∀ s, (streamMachine tenRows bookScope).Reachable Machine.anyEvent s →
      ExactlyOnce bookScope s := by
  intro h
  have hplay : ((streamMachine tenRows bookScope).replay Machine.anyEvent
      (.connect none 4100 :: .commit [bookParsed 5500] :: pollAlone ++ pollAlone) {}).map
        (fun s => s.connection.map Connection.written) =
          some (some [bookParsed 5500, bookParsed 5500]) := by
    decide +kernel
  obtain ⟨s, hrun, hwritten⟩ := Machine.exists_run_of_replay hplay
  obtain ⟨c, hc, hcwritten⟩ := Option.map_eq_some_iff.mp hwritten
  have hpairwise := (h s ⟨{}, rfl, hrun⟩ c hc).1
  rw [hcwritten] at hpairwise
  exact absurd (List.pairwise_cons.mp hpairwise).1 (by decide)

end AudioBook.EventStream
