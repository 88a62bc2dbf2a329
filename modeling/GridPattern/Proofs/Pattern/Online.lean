import GridPattern.Proofs.Pattern.Orderly

/-!
# The parser reads online

Each function of the parser takes and blames tokens in their order, and does not look beyond the next.

**The law** (`declaration_online`). What is read of a declaration, and what is at fault in it, does not depend on
tokens that come later.
-/

namespace GridPattern.Parser

open Reader

variable {here : List Token} {n : Nat} {what : Expectation}

theorem require_bind_online {α : Type} {test : Token → Bool} {f f' : Token → Reader α}
    (hwhat : what ≠ .integer) (hf : ∀ t, Online [t] (n - 1) (f t) (f' t)) :
    Online [] n (require what test >>= f) (require what test >>= f') := by
  unfold require
  simp only [bind_assoc]
  refine .next_bind nofun fun t => ?_
  cases test t with
  | true => exact hf t
  | false => exact .failAt hwhat

theorem mark_online (c : Char) : Online here n (mark c) (mark c) := by
  refine .weaken here (.next_bind nofun fun t => ?_)
  split
  · exact .pure ()
  · exact .failAt nofun

theorem string_online (hwhat : what ≠ .integer) : Online here n (string what) (string what) :=
  .weaken here (require_bind_online hwhat fun _ => .pure _)

/-! ## Directions, calls and suffixes -/

theorem directionOver_orderly (way : Direction) (s : Source) (ts : List Token) :
    Proceeds [] { s with tokens := ts } (directionOver way s ts) := by
  induction ts generalizing way with
  | nil => exact .ranOut (.refl [] _) (by decide)
  | cons t ts ih =>
    rw [directionOver]
    have goesOn : ∀ way, Proceeds [] { s with tokens := t :: ts } (directionOver way s ts) := by
      intro way
      exact ((ih way).weaken [t]).after (s := { s with tokens := t :: ts }) rfl
    have went : Went [] { s with tokens := t :: ts } [t] [] ts s.notes :=
      ⟨rfl, (List.append_nil _).symm, .nil⟩
    split
    · exact goesOn _
    · split
      · exact goesOn _
      · split
        · exact goesOn _
        · split
          · exact .read went rfl
          · exact .stopped went (by decide) (.here rfl .nil)

theorem directionOver_continues (way : Direction) (s s' : Source) (hnotes : s.notes = s'.notes)
    (pre more : List Token) : Continues more s'.finish (directionOver way s pre)
      (directionOver way s' (pre ++ more)) := by
  induction pre generalizing way with
  | nil =>
    rw [directionOver, failAtEnd, hnotes]
    exact .ranOut (directionOver_orderly way s' more)
  | cons t pre ih =>
    rw [List.cons_append, directionOver, directionOver]
    split
    · exact ih _
    · split
      · exact ih _
      · split
        · exact ih _
        · split
          · rw [hnotes]
            exact .both
          · rw [failAt, failAt, hnotes]
            exact .stopped

theorem direction_online : Online here n direction direction := by
  have orderly : ∀ way, Orderly [] fun s => directionOver way s s.tokens :=
    fun way s => directionOver_orderly way s s.tokens
  refine .weaken here (.bind ⟨orderly _, orderly _, fun pre _ more finish finish' notes => ?_⟩ fun way => .pure _)
  exact directionOver_continues _ ⟨pre, finish, notes⟩ ⟨pre ++ more, finish', notes⟩ rfl pre more

theorem params_online : Online here n params params := by
  refine .weaken here (.next_bind nofun fun t => .bind (.note ?_) fun _ => .pure _)
  simp [ParseFault.isStructural]

theorem call_online : Online here n call call := by
  refine .bind (string_online nofun) fun name => .bind (mark_online '<') fun _ => ?_
  refine .bind direction_online fun way => .bind (.nextIs _) fun more => ?_
  split
  · exact .bind params_online fun p => .bind (mark_online '}') fun _ => .pure _
  · exact .bind (.pure _) fun p => .bind (mark_online '}') fun _ => .pure _

theorem bounds_online : Online here n bounds bounds := by
  have quiet : ∀ (text : List Char) (flaw : Bounds.Flaw), (boundsFault text flaw).isStructural = false := by
    intro text flaw
    cases flaw <;> rfl
  refine .bind (mark_online '{') fun _ => require_bind_online nofun fun t => .bind (.note ?_) fun _ => ?_
  · simp [quiet]
  · exact .bind (mark_online '}') fun _ => .pure _

theorem ite_bind_online {α β : Type} {test : Token → Bool} {r₁ r₂ : Reader α} {f f' : α → Reader β}
    (h₁ : Online [] n (r₁ >>= f) (r₁ >>= f')) (h₂ : Online [] n (r₂ >>= f) (r₂ >>= f')) :
    Online [] n ((nextIs test >>= fun b => if b then r₁ else r₂) >>= f)
      ((nextIs test >>= fun b => if b then r₁ else r₂) >>= f') := by
  rw [bind_assoc, bind_assoc]
  refine .bind (.nextIs test) fun b => ?_
  cases b with
  | true => exact h₁
  | false => exact h₂

/-- A suffix takes a token at least, so what follows one has less. -/
theorem suffix_bind_online {α : Type} {f f' : Option Repeat → Reader α}
    (hsome : ∀ count, Online [] (n - 1) (f (some count)) (f' (some count)))
    (hnone : Online [] n (f none) (f' none)) :
    Online [] n (suffix? >>= f) (suffix? >>= f') := by
  have take : ∀ count, Online [] n ((next .token >>= fun _ => pure (some count)) >>= f)
      ((next .token >>= fun _ => pure (some count)) >>= f') := by
    intro count
    rw [bind_assoc, bind_assoc]
    exact .next_bind nofun fun t => .weaken [t] (hsome count)
  have takeBounds : Online [] n ((next .token >>= fun _ => bounds >>= fun b => pure (some (.bounded b))) >>= f)
      ((next .token >>= fun _ => bounds >>= fun b => pure (some (.bounded b))) >>= f') := by
    simp only [bind_assoc]
    exact .next_bind nofun fun t => .weaken [t] (.bind bounds_online fun b => hsome (.bounded b))
  unfold suffix?
  refine ite_bind_online (take _) (ite_bind_online (take _) (ite_bind_online (take _) ?_))
  exact ite_bind_online takeBounds hnone

theorem suffixes_orderly (depth : Nat) (node : Node) : Orderly [] (suffixes depth node) := by
  induction depth generalizing node with
  | zero => exact .failAtEnd nofun
  | succ depth ih =>
    have online : Online [] 0 (suffixes (depth + 1) node) (suffixes (depth + 1) node) :=
      suffix_bind_online (fun count => .of_orderly (ih _) (ih _)) (.pure node)
    exact online.left

theorem suffixes_online {depth depth' : Nat} (hle : depth ≤ depth') (hn : n < depth) (node : Node) :
    Online [] n (suffixes depth node) (suffixes depth' node) := by
  induction depth generalizing node n depth' with
  | zero => omega
  | succ depth ih =>
    obtain ⟨depth', rfl⟩ : ∃ d, depth' = d + 1 := ⟨depth' - 1, by omega⟩
    refine suffix_bind_online (fun count => ?_) (.pure node)
    cases n with
    | zero => exact .of_orderly (suffixes_orderly depth _) (suffixes_orderly depth' _)
    | succ n => exact ih (by omega) (by omega) _

/-! ## Statements -/

theorem listEnds_online : Online here n listEnds listEnds := .peek fun t => t.all fun t => closers.any t.isSpecial

theorem negatedClass_online : Online here n negatedClass negatedClass := by
  refine .weaken here (.next_bind nofun fun t => .weaken [t] ?_)
  exact .bind (string_online nofun) fun text => .pure _

/-- **What is read at one depth is read in order**: lists, statements and single statements. -/
structure OrderlyAt (depth : Nat) : Prop where
  ofList : ∀ kind, Orderly [] (list depth kind)
  ofStatements : ∀ before, Orderly [] (statements depth before)
  ofStatement : Orderly [] (statement depth)

theorem statementHead_orderly {depth : Nat} (ih : OrderlyAt depth) (t : Token) :
    Orderly [t] (statementHead depth t) := by
  obtain head | hfail := head_or_fail depth t
  · generalize statementHead depth t = r at head
    cases head with
    | literal | outside | inside => exact .pure _
    | group | choice =>
      refine .weaken [t] (.bind (ih.ofList _) fun node => .bind (mark_online _ (n := 0)).left fun _ => .pure _)
    | direction => exact .bind (direction_online (n := 0)).left fun way => .pure _
    | call => exact .bind (call_online (n := 0)).left fun target => .pure _
    | look => exact .weaken [t] (.bind ih.ofStatement fun inner => .pure _)
  · rw [hfail]
    exact .failAt nofun

theorem orderlyAt (depth : Nat) : OrderlyAt depth := by
  induction depth with
  | zero => exact ⟨fun _ => .failAtEnd nofun, fun _ => .failAtEnd nofun, .failAtEnd nofun⟩
  | succ depth ih =>
    refine ⟨fun kind => ?_, fun before => ?_, ?_⟩
    · rw [list]
      refine .bind (.nextIs _) fun negated => ?_
      split
      · exact (negatedClass_online (n := 0)).left
      · exact .bind (ih.ofStatements []) fun parts => .pure _
    · rw [statements]
      refine .bind (listEnds_online (n := 0)).left fun ends => ?_
      split
      · exact .pure _
      · exact .bind ih.ofStatement fun node => ih.ofStatements _
    · rw [statement_succ]
      refine .next_bind nofun fun t => ?_
      exact .bind (statementHead_orderly ih t) fun node => suffixes_orderly depth node

/-- **What is read at one depth is read online** at this depth and any other that is no less: lists, statements and
what follows a statement, which has one token less. -/
structure OnlineAt (depth : Nat) : Prop where
  ofList : ∀ {depth' n : Nat} (kind : ListKind), depth ≤ depth' → 3 * n + 2 ≤ depth →
    Online [] n (list depth kind) (list depth' kind)
  ofStatements : ∀ {depth' n : Nat} (before : List Node), depth ≤ depth' → 3 * n + 1 ≤ depth →
    Online [] n (statements depth before) (statements depth' before)
  ofStatement : ∀ {depth' n : Nat} {α : Type} {f f' : Node → Reader α}, depth ≤ depth' → 3 * n ≤ depth →
    (∀ node, Online [] (n - 1) (f node) (f' node)) →
      Online [] n (statement depth >>= f) (statement depth' >>= f')

theorem statementHead_online {depth depth' : Nat} (ih : OnlineAt depth) (hle : depth ≤ depth')
    (hn : 3 * n + 2 ≤ depth) (t : Token) : Online [t] n (statementHead depth t) (statementHead depth' t) := by
  have group : ∀ kind close, Online [t] n
      (list depth kind >>= fun node => mark close >>= fun _ => pure node)
      (list depth' kind >>= fun node => mark close >>= fun _ => pure node) := fun kind close =>
    .weaken [t] (.bind (ih.ofList kind hle hn) fun node => .bind (mark_online close) fun _ => .pure node)
  have around : ∀ kind, Online [t] n (statement depth >>= fun inner => pure (Node.look kind inner))
      (statement depth' >>= fun inner => pure (Node.look kind inner)) := fun kind =>
    .weaken [t] (ih.ofStatement hle (by omega) fun inner => .pure _)
  unfold statementHead
  split
  · exact .pure _
  · exact group .all ')'
  · exact group .any ']'
  · exact .bind direction_online fun way => .pure _
  · exact .bind call_online fun target => .pure _
  · exact .pure _
  · exact .pure _
  · exact around .absent
  · exact around .unmarked
  · exact around .retraced
  · exact .failAt nofun

theorem list_online {depth depth' : Nat} (ih : OnlineAt depth) (kind : ListKind) (hle : depth ≤ depth')
    (hn : 3 * n + 1 ≤ depth) : Online [] n (list (depth + 1) kind) (list (depth' + 1) kind) := by
  rw [list, list]
  refine .bind (.nextIs _) fun negated => ?_
  split
  · exact negatedClass_online
  · exact .bind (ih.ofStatements [] hle hn) fun parts => .pure _

theorem statement_online {α : Type} {depth depth' : Nat} {f f' : Node → Reader α} (ih : OnlineAt depth)
    (hle : depth ≤ depth') (hn : 3 * n ≤ depth + 1) (hf : ∀ node, Online [] (n - 1) (f node) (f' node)) :
    Online [] n (statement (depth + 1) >>= f) (statement (depth' + 1) >>= f') := by
  cases n with
  | zero =>
    exact .of_orderly (.bind (orderlyAt _).ofStatement fun node => (hf node).left)
      (.bind (orderlyAt _).ofStatement fun node => (hf node).right)
  | succ n =>
    rw [statement_succ, statement_succ, bind_assoc, bind_assoc]
    refine .next_bind nofun fun t => ?_
    rw [bind_assoc, bind_assoc]
    refine .bind (statementHead_online ih hle (by omega) t) fun node => ?_
    exact .bind (suffixes_online hle (by omega) node) hf

theorem statements_online {depth depth' : Nat} (ih : OnlineAt depth) (before : List Node)
    (hle : depth ≤ depth') (hn : 3 * n ≤ depth) :
    Online [] n (statements (depth + 1) before) (statements (depth' + 1) before) := by
  rw [statements, statements]
  refine .bind listEnds_online fun ends => ?_
  split
  · exact .pure _
  · -- Of no token at all there may be no depth left, and nothing is to be shown.
    refine ih.ofStatement hle hn fun node => ?_
    cases n with
    | zero => exact .of_orderly ((orderlyAt _).ofStatements _) ((orderlyAt _).ofStatements _)
    | succ n => exact ih.ofStatements _ hle (by omega)

theorem onlineAt (depth : Nat) : OnlineAt depth := by
  induction depth with
  | zero =>
    refine ⟨fun _ _ hn => by omega, fun _ _ hn => by omega, fun {depth' n} _ _ _ _ hn hf => ?_⟩
    obtain rfl : n = 0 := by omega
    exact .of_orderly (.bind (orderlyAt 0).ofStatement fun node => (hf node).left)
      (.bind (orderlyAt depth').ofStatement fun node => (hf node).right)
  | succ depth ih =>
    have deeper : ∀ {depth'}, depth + 1 ≤ depth' → ∃ d, depth' = d + 1 ∧ depth ≤ d :=
      fun {depth'} hle => ⟨depth' - 1, by omega, by omega⟩
    refine ⟨fun kind hle hn => ?_, fun before hle hn => ?_, fun hle hn hf => ?_⟩
    · obtain ⟨d, rfl, hd⟩ := deeper hle
      exact list_online ih kind hd (by omega)
    · obtain ⟨d, rfl, hd⟩ := deeper hle
      exact statements_online ih before hd (by omega)
    · obtain ⟨d, rfl, hd⟩ := deeper hle
      exact statement_online ih hd hn hf

/-! ## Declarations -/

theorem declarationBody_online {depth depth' : Nat} (hle : depth ≤ depth') (hn : 3 * n + 2 ≤ depth)
    (name : List Char) (p : Params) :
    Online here n (declarationBody depth name p) (declarationBody depth' name p) := by
  refine .bind (mark_online ':') fun _ => .bind ((onlineAt depth).ofList .all hle hn) fun body => ?_
  exact .bind (mark_online '\n') fun _ => .pure _

/-- **A declaration is read online**, where there is depth enough for its tokens. -/
theorem declaration_online {depth depth' : Nat} (hle : depth ≤ depth') (hn : 3 * n + 2 ≤ depth) :
    Online [] n (declaration depth) (declaration depth') := by
  rw [declaration_eq, declaration_eq]
  refine .bind (string_online nofun) fun name => .bind (.nextIs _) fun more => ?_
  split
  · refine .next_bind nofun fun o => .bind params_online fun p => .bind (mark_online '}') fun _ => ?_
    exact declarationBody_online hle (by omega) name p
  · exact declarationBody_online hle hn name {}

end GridPattern.Parser
