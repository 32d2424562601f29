/-
  ShiftReduce.Proofs.Branch.Failures
  ────────────────────────────────
  **HOW A BRANCH HAS COME BY ITS FAILURE.**

  A branch fails once, and nothing that is done to it afterwards changes it.  It
  has had no first token to shift, has found no move to make, has been
  interrupted, or has been refused a move.

  Main statements: `stuck_predict` (why no move is found) and `Reachable.fails`
  (every failure has one of these causes).
-/
import ShiftReduce.Proofs.Branch.Reachable
import ShiftReduce.Proofs.Branch.Tally

namespace ShiftReduce

variable {S : Type} [DecidableEq S] [GrammarSymbol S]

namespace Problem

variable {problem : Problem S} {branch : Branch S} {error : ParseError S}

/-! ## §1. No move is found. -/

/-- The ways in which looking for moves can fail, each with its failure. -/
inductive Stuck (problem : Problem S) (branch : Branch S) : ParseError S → Prop where
  /-- Nothing is on the stack. -/
  | bare (items : branch.stack.items = []) :
      Stuck problem branch ⟨.noApplicableRule none ∅, .predict, none⟩
  /-- No rule mentions the top of the stack, and the input is used up. -/
  | unfinished {top : Token S} {rest : List (Token S)} (items : branch.stack.items = top :: rest)
      (settled : problem.SettledAt branch.cursor) :
      Stuck problem branch ⟨.unfinishedParse branch.stackKinds, .predict, some top.position⟩
  /-- No item of the top of the stack fits the stack. -/
  | unfit {top : Token S} {rest : List (Token S)} {expected : SymbolSet S}
      (items : branch.stack.items = top :: rest) :
      Stuck problem branch ⟨.noApplicableRule (some top.kind) expected, .predict, some top.position⟩
  /-- An accepting item covers the stack, but a token is left. -/
  | unconsumed {lexeme : Lexeme S} (left : problem.stream.lexemes[branch.cursor]? = some lexeme) :
      Stuck problem branch ⟨.noApplicableRule (some lexeme.kind) ∅, .predict, some lexeme.position⟩
  /-- No item that fits the stack admits the token that the top knows to come next. -/
  | unforeseen {top : Token S} {rest : List (Token S)} {expected : SymbolSet S}
      (items : branch.stack.items = top :: rest)
      (refused : ∀ item ∈ problem.candidates branch branch.stack.size (problem.table.items top.kind),
        item.admits (top.lookaheadKind? problem.stream) = false) :
      Stuck problem branch ⟨.noApplicableRule (top.lookaheadKind? problem.stream) expected, .predict,
        some (nextPosition top.position)⟩

/-- Several candidates fail together if none admits the next token, or if the
stack shows none of them. -/
theorem of_disambiguate_error {top : Token S} {lookahead : Option S} {candidates : List (Item S)}
    (h : (disambiguate branch top lookahead candidates).2 = .error error) :
    ∃ expected, (∀ item ∈ candidates, item.admits lookahead = false) ∧
        error = branch.errorAt (.noApplicableRule lookahead expected) (some (nextPosition top.position)) ∨
      error = branch.errorAt (.noApplicableRule (some top.kind) expected) (some top.position) := by
  unfold disambiguate at h
  dsimp only at h
  split at h
  · next none =>
    cases h
    refine ⟨_, .inl ⟨fun item mem => ?_, rfl⟩⟩
    exact Bool.eq_false_iff.2 (List.filter_eq_nil_iff.1 (List.isEmpty_iff.1 none) item mem)
  · split at h
    · cases h
      exact ⟨_, .inr rfl⟩
    · cases h

/-- Looking for moves that fails does so in one of these ways. -/
theorem stuck_predict (h : (problem.predict (branch.enter .predict)).2 = .error error) :
    problem.Stuck branch error := by
  unfold predict at h
  dsimp only at h
  split at h
  · next bottom =>
    cases h
    exact .bare (UndoStack.pop?_eq_none_iff.1 bottom)
  · next top stack pop =>
    have items : branch.stack.items = top :: stack.items := UndoStack.items_of_pop? pop
    split at h
    · cases h
      split
      · next settled => exact .unfinished items (isSettled_iff.1 settled)
      · exact .unfit items
    · split at h
      -- No candidate is left: either an accepting item finds tokens left, or no item fits.
      · split at h
        · next failure accepting =>
          cases h
          split at accepting
          · obtain ⟨lexeme, left, hcheck⟩ := checkConsumed_refused accepting
            rw [hcheck] at accepting
            cases accepting
            exact .unconsumed left
          · cases accepting
        · cases h
          exact .unfit items
      · cases h
      · obtain ⟨expected, ⟨refused, rfl⟩ | rfl⟩ := of_disambiguate_error h
        · exact .unforeseen items refused
        · exact .unfit items

/-! ## §2. Failures of branches that operations lead to. -/

/-- The ways in which a branch can come by its failure. -/
inductive Fails (problem : Problem S) : Branch S → ParseError S → Prop where
  /-- There is no first token. -/
  | begun (nothing : problem.stream.get? 0 = none) :
      Fails problem problem.start ⟨.endOfStream, .shift, none⟩
  /-- No move has been found. -/
  | looked {before : Branch S} {error : ParseError S} (reachable : problem.Reachable before)
      (going : before.isOver = false) (stuck : problem.Stuck before error) :
      Fails problem (problem.nextMoves before).2 error
  /-- The branch has been interrupted. -/
  | interrupted {before : Branch S} (reachable : problem.Reachable before)
      (going : before.isOver = false) :
      Fails problem before.interrupt
        ⟨.unfinishedParse before.stackKinds, .complete, before.topPosition?⟩
  /-- A move has been refused. -/
  | moved {before after : Branch S} {move : Move S} {error : ParseError S}
      (reachable : problem.Reachable before) (known : problem.Knows move)
      (refuses : problem.Refuses move (counted move before) after error) :
      Fails problem (after.fail error) error

/-- A branch fails at once if there is no first token. -/
theorem start_of_empty (nothing : problem.stream.get? 0 = none) :
    problem.start = (Branch.blank.enter .shift).fail ⟨.endOfStream, .shift, none⟩ := by
  have nothing : problem.stream.get? (Branch.blank.enter .shift : Branch S).cursor = none := nothing
  unfold start shift
  dsimp only
  rw [nothing]
  rfl

/-- That is the only way in which the beginning fails. -/
theorem empty_of_start (failed : problem.start.error = some error) : problem.stream.get? 0 = none := by
  rcases start_cases problem with ⟨token, _, moved, hstart, stands⟩ | ⟨nothing, _⟩
  · have alive : (problem.complete moved).error = none :=
      (congrArg Prod.snd (tally_complete problem moved)).trans stands.error
    rw [hstart, alive] at failed
    cases failed
  · exact nothing

theorem fails_start (failed : problem.start.error = some error) : problem.Fails problem.start error := by
  have nothing := empty_of_start failed
  cases (congrArg Branch.error (start_of_empty nothing)).symm.trans failed
  exact .begun nothing

/-- Looking for moves in a branch that goes on fails only if there is none, and this is noted. -/
theorem stuck_nextMoves (clean : branch.stack.popped = []) (going : branch.isOver = false)
    (failed : (problem.nextMoves branch).2.error = some error) :
    problem.Stuck branch error ∧ ∃ considered,
      (problem.nextMoves branch).2 = ((branch.enter .predict).consider considered).fail error := by
  obtain ⟨considered, hnext⟩ := nextMoves_of_going problem clean going
  have alive : ((branch.enter .predict).consider considered).error = none :=
    (Branch.isOver_eq_false_iff.1 going).2
  cases hpredict : (problem.predict (branch.enter .predict)).2 with
  | ok moves =>
    rw [hnext, hpredict] at failed
    cases alive.symm.trans failed
  | error failure =>
    rw [hnext, hpredict] at failed ⊢
    cases (Branch.error_fail alive failure).symm.trans failed
    exact ⟨stuck_predict hpredict, considered, rfl⟩

/-- A branch that has not failed fails by a move only if it is refused. -/
theorem fails_apply {move : Move S} (reachable : problem.Reachable branch) (alive : branch.error = none)
    (known : problem.Knows move) (failed : (problem.apply move branch).branch.error = some error) :
    problem.Fails (problem.apply move branch).branch error := by
  obtain ⟨after, refuses, happly⟩ :=
    refuses_apply reachable.clean alive ((error_apply problem move alive).symm.trans failed)
  rw [happly]
  exact .moved reachable known refuses

/-- Whatever operations lead to a branch that has failed, it has come by its
failure in one of these ways, and has stayed as it was then. -/
theorem Reachable.fails (reachable : problem.Reachable branch) (failed : branch.error = some error) :
    problem.Fails branch error := by
  -- By induction on the operations: a branch that has failed is changed by none of them, so the
  -- failure is an old one or comes from the last operation.
  induction reachable with
  | start => exact fails_start failed
  | @looked before reachable ih =>
    cases going : before.isOver with
    | true =>
      rw [nextMoves_of_isOver going] at failed ⊢
      exact ih failed
    | false => exact .looked reachable going (stuck_nextMoves reachable.clean going failed).1
  | @interrupted before reachable ih =>
    cases going : before.isOver with
    | true =>
      rw [interrupt_of_isOver going] at failed ⊢
      exact ih failed
    | false =>
      cases (error_of_interrupt going).symm.trans failed
      exact .interrupted reachable going
  | @moved before move reachable known ih =>
    cases alive : before.error with
    | some first =>
      rw [apply_of_failed problem move alive] at failed ⊢
      exact ih failed
    | none => exact fails_apply reachable alive known failed

/-! ## §3. The phases of failures. -/

/-- The phases of a move. -/
def movePhases : List Phase := [.shift, .reduce, .accept, .checkBranch]

theorem Refuses.phase {move : Move S} {before after : Branch S}
    (refuses : problem.Refuses move before after error) : error.phase ∈ movePhases := by
  cases refuses <;> simp [movePhases]

theorem Stuck.phase (stuck : problem.Stuck branch error) : error.phase = .predict := by
  cases stuck <;> rfl

/-- A branch without a first token has failed while shifting it. -/
theorem phase_of_start (failed : problem.start.error = some error) : error.phase = .shift := by
  cases (congrArg Branch.error (start_of_empty (empty_of_start failed))).symm.trans failed
  rfl

/-- The failure that a move leaves in a branch is of one of its phases. -/
theorem phase_of_apply {move : Move S} (clean : branch.stack.popped = []) (alive : branch.error = none)
    (failed : (problem.apply move branch).branch.error = some error) : error.phase ∈ movePhases := by
  obtain ⟨_, refuses, _⟩ :=
    refuses_apply clean alive ((error_apply problem move alive).symm.trans failed)
  exact refuses.phase

/-- Where nothing is proposed, the branch has failed while predicting. -/
theorem phase_of_nextMoves (clean : branch.stack.popped = []) (going : branch.isOver = false)
    (h : (problem.nextMoves branch).1 = []) :
    ∃ error, (problem.nextMoves branch).2.error = some error ∧ error.phase = .predict := by
  obtain ended | failed := isOver_of_nextMoves_eq_nil clean h
  · rw [going] at ended
    cases ended
  · obtain ⟨error, failed⟩ := Option.isSome_iff_exists.1 failed
    exact ⟨error, failed, (stuck_nextMoves clean going failed).1.phase⟩

omit [DecidableEq S] in
/-- An interruption leaves a failure of the phase of completion. -/
theorem phase_of_interrupt (going : branch.isOver = false) :
    ∃ error, branch.interrupt.error = some error ∧ error.phase = .complete :=
  ⟨_, error_of_interrupt going, rfl⟩

end Problem

end ShiftReduce
