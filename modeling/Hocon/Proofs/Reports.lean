import Hocon.Proofs.Stops
import Mathlib.Tactic.SplitIfs

/-!
# How a stopped rendering is reported

A rendering that is stopped (`Hocon.Stops`) ends with the report of the stop. This module says what
the reports are worth, for any value and any options.

* **Containers.** The reading of a container that is broken off is reported once, at the container.
  A failure that says that the container has changed becomes an error with the failure as its cause;
  any other failure is passed on, and as it is but for two kinds: a list completes the position in a
  failure that has one, and the reading of a map fails in its own way if the map is at its end
  before it has begun. Nothing else is reported as a change (`Hocon.render_outcome_of_broken`).
* **Constraints.** A child that is no node, or a text under a quoting policy that is none, is
  reported at its position if it is met when it is written. It is reported without a position if it
  is met before, by asking it for its comment or by measuring its list
  (`Hocon.constraint_path_of_render`).

Both statements are weaker than one would like. `Hocon.render_completes_position` shows a failure
that does not arrive as it was, and `Hocon.constraint_path_lost` a map and a list that do not report
the position of a child.
-/

namespace Hocon

variable {o : Options} {root : Value}

/-! ### What stops a scalar node -/

/-- What a value in a scalar node stops a rendering with. -/
theorem Stops.halt_cases {p : Path} {s : Stop} (h : Stops o root p s) {halt : Halt}
    (hs : s = .measured halt ∨ s = .written halt) :
    halt = .failure .tooManyDigits ∨
      (∃ v reason, halt = .error { problem := .unsupported v reason }) ∨
      halt = .error { problem := .unknownQuoting o.stringQuoting.key } := by
  have hliteral : ∀ {v : Value}, Literal.ofValue o.stringQuoting.policy v = .error halt →
      halt = .failure .tooManyDigits ∨
        (∃ v reason, halt = .error { problem := .unsupported v reason }) ∨
        halt = .error { problem := .unknownQuoting o.stringQuoting.key } := fun hl =>
    (Literal.halt_cases hl).imp_right (Or.imp (fun ⟨reason, hreason⟩ => ⟨_, reason, hreason⟩)
      And.right)
  induction h with
  | scalar comment hl | measured before rest comment inner _ _ _ hl =>
    rcases hs with hs | hs <;> cases hs
    exact hliteral hl
  | entry before k rest failure comment _ _ _ _ _ ih => exact ih hs
  | element before rest comment _ _ _ _ ih => exact ih hs
  | _ => rcases hs with hs | hs <;> cases hs

/-- A problem ends a rendering with an error of its family, or with the failure to put it into
words. -/
theorem Halt.ofProblem_cases (problem : Problem) (path : Path) :
    Halt.ofProblem problem path = .error { problem, path } ∨
      Halt.ofProblem problem path = .failure .tooManyDigits := by
  rw [ofProblem]
  split
  · exact Or.inl rfl
  · exact Or.inr rfl

/-- What stops a rendering other than the reading of a container is not reported as a change. -/
theorem Stops.halt_ne_unstable {p : Path} {s : Stop} (h : Stops o root p s)
    (hs : ∀ container f, s ≠ .broken container f) :
    s.halt p = .failure .tooManyDigits ∨
      ∃ e, s.halt p = .error e ∧ e.problem.category ≠ .unstableTree := by
  cases s with
  | broken container f => exact absurd rfl (hs container f)
  | unspelled k => exact Or.inl rfl
  | noComment v =>
    rcases Halt.ofProblem_cases (.noComment v) [] with herror | hfailure
    · exact Or.inr ⟨_, herror, by simp [Problem.category]⟩
    · exact Or.inl hfailure
  | notANode v =>
    rcases Halt.ofProblem_cases (.notANode v) p with herror | hfailure
    · exact Or.inr ⟨_, herror, by simp [Problem.category]⟩
    · exact Or.inl hfailure
  | measured halt =>
    rcases h.halt_cases (Or.inl rfl) with rfl | ⟨v, reason, rfl⟩ | rfl
    · exact Or.inl rfl
    · exact Or.inr ⟨_, rfl, by simp [Problem.category]⟩
    · exact Or.inr ⟨_, rfl, by simp [Problem.category]⟩
  | written halt =>
    rcases h.halt_cases (Or.inr rfl) with rfl | ⟨v, reason, rfl⟩ | rfl
    · exact Or.inl rfl
    · exact Or.inr ⟨_, rfl, by simp [Problem.category]⟩
    · exact Or.inr ⟨_, rfl, by simp [Problem.category]⟩

/-! ### Containers -/

/-- A container that changed is reported by an error at its path. -/
theorem Container.halt_of_isInstability {f : Failure} (h : f.isInstability = true)
    (container : Container) (p : Path) :
    container.halt p f = .error { problem := container.problem f, path := p } := by
  cases container
  · exact if_pos h
  · exact if_pos h

/-- The report of a container that changed holds the words of the failure. -/
theorem Container.message_problem (container : Container) (f : Failure) (p : Path) :
    ∃ before after, Error.message { problem := container.problem f, path := p } =
      some (before ++ f.message ++ after) := by
  have hproblem : ∃ before, (container.problem f).message = some (before ++ f.message) := by
    cases container <;> exact ⟨_, rfl⟩
  obtain ⟨before, hbefore⟩ := hproblem
  rw [Error.message, hbefore, Option.map_some]
  split_ifs
  · exact ⟨before, "", by simp⟩
  · exact ⟨before, _, by rw [String.append_assoc, String.append_assoc]⟩

/-- **A reading that is broken off is reported once, at its container.** If the reading of the
container at `p` is broken off during a rendering, there is no text. If the failure says that the
container is unstable, it becomes an error at `p` that holds its words and has it as its cause,
whatever stands around the container. Any other failure is passed on as it is, with two exceptions:
the position in a failure of a list becomes one below the list, and a map that is at its end before
it has begun makes its reading fail. If no reading is broken off, no container is reported as
unstable, and the only failures are those to write an integer and to count characters. -/
theorem render_outcome_of_broken [Host] (o : Options) (root : Value) :
    (o.CountsFit → ∀ p container f, Stops o root p (.broken container f) →
      (f.isInstability = true → ∃ e, (render o root).outcome = .error (.error e) ∧ e.path = p ∧
        e.problem.category = .unstableTree ∧ e.problem.cause? = some f ∧
        ∃ before after, e.message = some (before ++ f.message ++ after)) ∧
      (f.isInstability = false →
        ((container = .list → ∀ below, f.kind ≠ .unsupported below) →
          (container = .map → f.kind ≠ .exhausted) →
          (render o root).outcome = .error (.failure f)) ∧
        (container = .list → ∀ below, f.kind = .unsupported below →
          (render o root).outcome =
            .error (.failure { f with kind := .unsupported (p ++ below) })) ∧
        (container = .map → f.kind = .exhausted →
          (render o root).outcome =
            .error (.failure ⟨.runtime, "generator raised StopIteration"⟩)))) ∧
    ((¬∃ p container f, Stops o root p (.broken container f)) →
      ∀ halt, (render o root).outcome = .error halt →
        halt = .failure .tooManyDigits ∨ halt = .failure .countTooLarge ∨
          ∃ e, halt = .error e ∧ e.problem.category ≠ .unstableTree) := by
  constructor
  · intro hc p container f hstops
    have houtcome : (render o root).outcome = .error (container.halt p f) :=
      hstops.outcome_render hc
    refine ⟨fun hinstability => ?_, fun hinstability => ?_⟩
    · rw [container.halt_of_isInstability hinstability] at houtcome
      exact ⟨_, houtcome, rfl, by cases container <;> rfl, by cases container <;> rfl,
        container.message_problem f p⟩
    · have hstays : ¬f.isInstability = true := by simp [hinstability]
      refine ⟨fun hlist hmap => ?_, ?_, ?_⟩
      · rw [houtcome]
        cases container with
        | map => rw [Container.halt, Render.haltOfMap, if_neg hstays, if_neg (hmap rfl)]
        | list =>
          rw [Container.halt, Render.haltOfList, if_neg hstays]
          split
          · exact absurd ‹_› (hlist rfl _)
          · rfl
      · rintro rfl below hbelow
        rw [houtcome, Container.halt, Render.haltOfList, if_neg hstays, hbelow]
      · rintro rfl hexhausted
        rw [houtcome, Container.halt, Render.haltOfMap, if_neg hstays, if_pos hexhausted]
  · intro hnone halt houtcome
    rcases exists_stops_of_error houtcome with ⟨-, rfl⟩ | ⟨-, p, s, hstops, rfl⟩
    · exact Or.inr (Or.inl rfl)
    · have hs : ∀ container f, s ≠ .broken container f := by
        rintro container f rfl
        exact hnone ⟨p, container, f, hstops⟩
      exact (hstops.halt_ne_unstable hs).imp_right Or.inr

/-- A block whose second element is broken off when it is measured, in front of a value that would
be reported otherwise. -/
def brokenElement : Value :=
  .ofEntries [(.str "a", .ofChildren [.scalarNode (.int 1) (some "one"),
    .failingList [.scalarNode (.int 1) none, .scalarNode (.bytes []) none] 3 1
      ⟨.notImplemented, "gone"⟩ none])]

/-- A map that runs out of stack behind its only entry. -/
def brokenMap : Value :=
  .ofChildren [.failingMap [(.str "k", .scalarNode .null none)] 1 ⟨.recursion, "too deep"⟩ none]

theorem stops_brokenElement : Stops {} brokenElement [.key "a", .index 1]
    (.broken .list ⟨.notImplemented, "gone"⟩) := by
  have hone : ∀ c ∈ [Value.scalarNode (.int 1) (some "one")], Completes {} c :=
    List.forall_mem_singleton.mpr (.scalar _ rfl)
  have hmeasured : Layout.Measured {} 0 [.scalarNode (.int 1) none] :=
    ⟨List.forall_mem_singleton.mpr ⟨_, _, _, rfl, rfl⟩, by decide⟩
  refine .entry [] (.str "a") [] none none (by simp) (by simp) rfl rfl ?_
  refine .element [.scalarNode (.int 1) (some "one")] [] none
    (show Layout.Decides {} _ [] false from rfl) hone (Or.inr rfl) ?_
  exact .length none ⟨rfl, by simp [Value.pass, Layout.blockReason?]⟩ rfl hmeasured

theorem stops_brokenMap :
    Stops {} brokenMap [.index 0] (.broken .map ⟨.recursion, "too deep"⟩) := by
  have hkey : ∀ e ∈ [(Value.str "k", Value.scalarNode .null none)], (keyText? e.1).isSome = true :=
    List.forall_mem_singleton.mpr rfl
  have hentry : ∀ e ∈ [(Value.str "k", Value.scalarNode .null none)], Completes {} e.2 :=
    List.forall_mem_singleton.mpr (.scalar _ rfl)
  exact .element [] [] none (show Layout.Decides {} _ [] false from rfl) (by simp) (Or.inr rfl)
    (.map _ none hkey hentry)

section Examples

open scoped Unix

/-- The containers around the one that is broken off leave the report as it is. -/
theorem render_outcome_of_brokenElement :
    (∃ e, (render {} brokenElement).outcome = .error (.error e) ∧ e.path = [.key "a", .index 1] ∧
      e.problem.category = .unstableTree ∧
      e.problem.cause? = some ⟨.notImplemented, "gone"⟩ ∧
      ∃ before after, e.message = some (before ++ "gone" ++ after)) ∧
    (render {} brokenMap).outcome = .error (.failure ⟨.recursion, "too deep"⟩) := by
  have hc : Options.CountsFit {} := ⟨rfl, rfl, rfl⟩
  exact ⟨((render_outcome_of_broken {} brokenElement).1 hc _ _ _ stops_brokenElement).1 rfl,
    (((render_outcome_of_broken {} brokenMap).1 hc _ _ _ stops_brokenMap).2 rfl).1
      (fun h => by cases h) fun _ => by simp⟩

/-- A list that finds a value without a literal form below its third element. -/
def unsupportedList : Value :=
  .ofEntries [(.str "a", .failingList [] 1 0 ⟨.unsupported [.index 2], "no form"⟩ none)]

/-- A map that is at its end before it has begun. -/
def exhaustedMap : Value :=
  .ofEntries [(.str "a", .failingMap [] 0 ⟨.exhausted, ""⟩ none)]

/-- **A failure can arrive as another one than was met**: the position in that of a list is
completed, and that of a map without a beginning is replaced. -/
theorem render_completes_position :
    (Stops {} unsupportedList [.key "a"] (.broken .list ⟨.unsupported [.index 2], "no form"⟩) ∧
      (render {} unsupportedList).outcome ≠
        .error (.failure ⟨.unsupported [.index 2], "no form"⟩) ∧
      (render {} unsupportedList).outcome =
        .error (.failure ⟨.unsupported [.key "a", .index 2], "no form"⟩)) ∧
    (Stops {} exhaustedMap [.key "a"] (.broken .map ⟨.exhausted, ""⟩) ∧
      (render {} exhaustedMap).outcome ≠ .error (.failure ⟨.exhausted, ""⟩) ∧
      (render {} exhaustedMap).outcome =
        .error (.failure ⟨.runtime, "generator raised StopIteration"⟩)) := by
  have hlist : Stops {} unsupportedList [.key "a"]
      (.broken .list ⟨.unsupported [.index 2], "no form"⟩) :=
    .entry [] (.str "a") [] none none (by simp) (by simp) rfl rfl (.copy _ _ _ _)
  have hmap : Stops {} exhaustedMap [.key "a"] (.broken .map ⟨.exhausted, ""⟩) :=
    .entry [] (.str "a") [] none none (by simp) (by simp) rfl rfl
      (.map _ none (by simp) (by simp))
  have hlistOutcome : (render {} unsupportedList).outcome =
      .error (.failure ⟨.unsupported [.key "a", .index 2], "no form"⟩) := rfl
  have hmapOutcome : (render {} exhaustedMap).outcome =
      .error (.failure ⟨.runtime, "generator raised StopIteration"⟩) := rfl
  refine ⟨⟨hlist, ?_, hlistOutcome⟩, ⟨hmap, ?_, hmapOutcome⟩⟩
  · rw [hlistOutcome]
    simp
  · rw [hmapOutcome]
    simp

end Examples

/-! ### Constraints -/

/-- Whether a child is met when it is to be written, and not before. -/
def Stop.isMetInWriting : Stop → Bool
  | notANode _ | written _ => true
  | broken .. | unspelled _ | noComment _ | measured _ => false

/-- **Where a constraint is reported.** A rendering that ends with an options constraint error was
stopped by one child. The error has the position of the child, wherever the child stands, if the
child is met when it is to be written. It has none if the child is met before: a value that is no
node is asked for its comment, or a text without a quoting policy is measured. -/
theorem constraint_path_of_render [Host] {e : Error}
    (h : (render o root).outcome = .error (.error e))
    (hconstraint : e.problem.category = .optionsConstraint) :
    ∃ p s, Stops o root p s ∧ s.halt p = .error e ∧
      e.path = if s.isMetInWriting then p else [] := by
  rcases exists_stops_of_error h with ⟨-, hhalt⟩ | ⟨-, p, s, hstops, hhalt⟩
  · cases hhalt
  refine ⟨p, s, hstops, hhalt.symm, ?_⟩
  cases s with
  | broken container f =>
    cases hinstability : f.isInstability with
    | true =>
      rw [Stop.halt, container.halt_of_isInstability hinstability] at hhalt
      cases hhalt
      cases container <;> cases hconstraint
    | false =>
      -- a failure that is passed on is no error
      cases container with
      | map =>
        rw [Stop.halt, Container.halt, Render.haltOfMap, hinstability] at hhalt
        cases hhalt
      | list =>
        rw [Stop.halt, Container.halt, Render.haltOfList, hinstability] at hhalt
        simp only [Bool.false_eq_true, if_false] at hhalt
        split at hhalt <;> cases hhalt
  | unspelled k => cases hhalt
  | noComment v =>
    rcases Halt.ofProblem_cases (.noComment v) [] with herror | hfailure
    · cases hhalt.trans herror
      rfl
    · cases hhalt.trans hfailure
  | notANode v =>
    rcases Halt.ofProblem_cases (.notANode v) p with herror | hfailure
    · cases hhalt.trans herror
      rfl
    · cases hhalt.trans hfailure
  | measured halt =>
    rcases hstops.halt_cases (Or.inl rfl) with rfl | ⟨v, reason, rfl⟩ | rfl
    · cases hhalt
    · cases hhalt
      cases hconstraint
    · cases hhalt
      rfl
  | written halt =>
    rcases hstops.halt_cases (Or.inr rfl) with rfl | ⟨v, reason, rfl⟩ | rfl
    · cases hhalt
    · cases hhalt
      rfl
    · cases hhalt
      rfl

/-- Options with a word in the place of the quoting policy of texts. -/
def strayQuoting : Options := { stringQuoting := .word "bogus" }

/-- A text in a list that is a block because of a comment. -/
def strayElement : Value :=
  .ofEntries [(.str "a", .ofChildren [.scalarNode .null (some "none"),
    .scalarNode (.str "x") none])]

open scoped Unix

/-- An element of a block is reported at its position. -/
theorem constraint_path_of_strayElement :
    (render strayQuoting strayElement).outcome = .error (.error
        { problem := .unknownQuoting "bogus", path := [.key "a", .index 1] }) ∧
      ∃ p s, Stops strayQuoting strayElement p s ∧
        s.halt p = .error { problem := .unknownQuoting "bogus", path := [.key "a", .index 1] } ∧
        [.key "a", .index 1] = if s.isMetInWriting then p else [] := by
  have hr : (render strayQuoting strayElement).outcome = .error (.error
      { problem := .unknownQuoting "bogus", path := [.key "a", .index 1] }) := rfl
  exact ⟨hr, constraint_path_of_render hr rfl⟩

/-- A text that is the only element of a list. -/
def strayList : Value := .ofEntries [(.str "a", .ofChildren [.scalarNode (.str "x") none])]

/-- **The position of a child can get lost**: that of a value under a key that is no node, and that
of a text in a list that is measured. -/
theorem constraint_path_lost :
    (Stops {} (.ofEntries [(.str "a", .str "x")]) [.key "a"] (.noComment (.str "x")) ∧
      (render {} (.ofEntries [(.str "a", .str "x")])).outcome =
        .error (.error { problem := .noComment (.str "x"), path := [] })) ∧
    (Stops strayQuoting strayList [.key "a", .index 0]
        (.measured (.error { problem := .unknownQuoting "bogus" })) ∧
      (render strayQuoting strayList).outcome =
        .error (.error { problem := .unknownQuoting "bogus", path := [] })) := by
  have hentry : Stops {} (.ofEntries [(.str "a", .str "x")]) [.key "a"] (.noComment (.str "x")) :=
    .entryComment [] (.str "a") [] none none (by simp) (by simp) rfl rfl
  have hmeasured : Layout.Measured strayQuoting 0 [] := ⟨by simp, by decide⟩
  have helement : Stops strayQuoting strayList [.key "a", .index 0]
      (.measured (.error { problem := .unknownQuoting "bogus" })) := by
    refine .entry [] (.str "a") [] none none (by simp) (by simp) rfl rfl ?_
    exact .measured [] [] none none ⟨rfl, by simp [Value.pass, Layout.blockReason?]⟩ rfl hmeasured
      rfl
  exact ⟨⟨hentry, rfl⟩, ⟨helement, rfl⟩⟩

end Hocon
