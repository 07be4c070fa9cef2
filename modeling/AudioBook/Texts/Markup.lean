import Mathlib.Data.List.Basic

/-!
# Markup and Its Events

A parser of markup reports a document as events: an element opens, text comes, an element closes. The
events of a document are nested well, and events that are nested well are those of a document.

Main results:

- `exists_forest`: a stream that is nested well is reported from a forest.
-/

namespace Markup

inductive Event (Name Data : Type)
  | opentag (name : Name)
  | text (data : Data)
  | closetag (name : Name)

/-- The elements of `open_`, innermost first, are open, and every tag that closes one closes the
innermost. -/
def WellNested {Name Data : Type} [DecidableEq Name] :
    List Name → List (Event Name Data) → Bool
  | open_, [] => open_.isEmpty
  | open_, .opentag name :: events => WellNested (name :: open_) events
  | open_, .text _ :: events => WellNested open_ events
  | [], .closetag _ :: _ => false
  | name :: open_, .closetag closed :: events =>
      decide (name = closed) && WellNested open_ events

/-- Text and elements side by side. -/
inductive Forest (Name Data : Type)
  | nil
  | text (data : Data) (rest : Forest Name Data)
  | element (name : Name) (children rest : Forest Name Data)

variable {Name Data : Type}

def Forest.events : Forest Name Data → List (Event Name Data)
  | .nil => []
  | .text data rest => .text data :: rest.events
  | .element name children rest =>
      .opentag name :: (children.events ++ .closetag name :: rest.events)

variable [DecidableEq Name]

/-- What a stream says that starts when the elements of `open_` are open: it reports a forest, and
then closes the innermost of them or ends. -/
def Reports (open_ : List Name) (events : List (Event Name Data)) : Prop :=
  ∃ forest : Forest Name Data, match open_ with
    | [] => events = forest.events
    | name :: outer => ∃ rest : List (Event Name Data), rest.length < events.length ∧
        events = forest.events ++ .closetag name :: rest ∧ WellNested outer rest = true

variable {events : List (Event Name Data)} {open_ : List Name}

theorem Reports.text (data : Data) (h : Reports open_ events) :
    Reports open_ (.text data :: events) := by
  obtain ⟨forest, h⟩ := h
  refine ⟨.text data forest, ?_⟩
  cases open_ with
  | nil => exact congrArg _ h
  | cons name outer =>
    obtain ⟨rest, hlength, hevents, hrest⟩ := h
    exact ⟨rest, by simp; omega, congrArg _ hevents, hrest⟩

theorem Reports.element {rest : List (Event Name Data)} (name : Name) (children : Forest Name Data)
    (h : Reports open_ rest) :
    Reports open_ (.opentag name :: (children.events ++ .closetag name :: rest)) := by
  obtain ⟨forest, h⟩ := h
  refine ⟨.element name children forest, ?_⟩
  cases open_ with
  | nil => rw [show rest = forest.events from h, Forest.events]
  | cons outermost outer =>
    obtain ⟨behind, hlength, hevents, hbehind⟩ := h
    refine ⟨behind, by simp; omega, ?_, hbehind⟩
    rw [hevents, Forest.events]
    simp

theorem reports_of_wellNested (h : WellNested open_ events = true) : Reports open_ events := by
  -- The stream behind an element is shorter, but it is no tail that the recursion goes through.
  induction hn : events.length using Nat.strongRecOn generalizing open_ events with
  | _ n ih =>
    subst hn
    cases events with
    | nil =>
      obtain rfl : open_ = [] := by simpa [WellNested] using h
      exact ⟨.nil, rfl⟩
    | cons event events =>
      cases event with
      | text data =>
        exact (ih events.length (by simp) (by simpa [WellNested] using h) rfl).text data
      | opentag name =>
        obtain ⟨children, rest, hlength, rfl, hrest⟩ :=
          ih events.length (by simp) (show WellNested (name :: open_) events = true by
            simpa [WellNested] using h) rfl
        exact (ih rest.length (by simp; omega) hrest rfl).element name children
      | closetag closed =>
        cases open_ with
        | nil => simp [WellNested] at h
        | cons name outer =>
          obtain ⟨rfl, hrest⟩ : name = closed ∧ WellNested outer events = true := by
            simpa [WellNested] using h
          exact ⟨.nil, events, by simp, rfl, hrest⟩

theorem exists_forest (h : WellNested [] events = true) :
    ∃ forest : Forest Name Data, forest.events = events := by
  obtain ⟨forest, hforest⟩ := reports_of_wellNested h
  exact ⟨forest, hforest.symm⟩

end Markup
