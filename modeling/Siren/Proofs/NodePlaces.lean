import Siren.Proofs.ParserProgress
import Siren.Proofs.TokenLayout
import Siren.Proofs.WellFormedTrees

/-!
# The places of nodes

Every node of a program that keeps a position keeps that of a token of its own: of the
word, the operator, the name or the number that it stands for.  Read in pre-order, these
nodes take their tokens from left to right, and each takes another one.  The other nodes
lie where the first node within them that keeps a position lies.

Both facts are about the derivation of a tree from its tokens, so they are stated for the
tokens and the nodes of each rule of the grammar, and a rule puts together those of its
parts.
-/

namespace Siren

/-! ## Nodes -/

/-- A node of a program. -/
inductive Tree where
  | expr (node : Expr)
  | stmt (node : Stmt)

namespace Tree

/-- The position of a node. -/
def pos : Tree → Position
  | .expr node => node.pos
  | .stmt node => node.pos

/-- Whether a node keeps the position of a token of its own.  An operator between
operands, a call and a statement that is an expression lie where their first part lies. -/
def keepsPos : Tree → Bool
  | .expr (.binary _ _ _) | .expr (.call _ _) | .expr .missing => false
  | .stmt (.expr _) | .stmt .missing => false
  | _ => true

/-- The token is the one that a node keeps the position of. -/
def StandsAt (token : Token) : Tree → Prop
  | .expr (.name pos name) => pos = token.pos ∧ token.kind = .identifier ∧ token.lexeme = name
  | .expr (.int pos value) =>
    pos = token.pos ∧ token.kind = .integer ∧ token.lexeme.toInt64? = some value
  | .expr (.bool pos value) =>
    pos = token.pos ∧ token.kind = if value then .trueWord else .falseWord
  | .expr (.unary pos .negate _) => pos = token.pos ∧ token.kind = .minus
  | .expr (.unary pos .not _) => pos = token.pos ∧ token.kind = .bang
  | .expr (.function pos _ _) => pos = token.pos ∧ token.kind = .fnWord
  | .expr (.branch pos _ _ _) => pos = token.pos ∧ token.kind = .ifWord
  | .stmt (.declare pos _ _) => pos = token.pos ∧ token.kind = .letWord
  | .stmt (.assign pos name _) =>
    pos = token.pos ∧ token.kind = .identifier ∧ token.lexeme = name
  | .stmt (.result pos _) => pos = token.pos ∧ token.kind = .returnWord
  | _ => False

end Tree

mutual

/-- An expression and all the nodes within it, in pre-order. -/
def Expr.trees : Expr → List Tree
  | .name pos name => [.expr (.name pos name)]
  | .int pos value => [.expr (.int pos value)]
  | .bool pos value => [.expr (.bool pos value)]
  | .unary pos op operand => .expr (.unary pos op operand) :: operand.trees
  | .binary left op right => .expr (.binary left op right) :: (left.trees ++ right.trees)
  | .function pos params body => .expr (.function pos params body) :: Block.trees body
  | .call callee args => .expr (.call callee args) :: (callee.trees ++ Expr.treesOfAll args)
  | .branch pos condition thenArm elseArm =>
    .expr (.branch pos condition thenArm elseArm) ::
      (condition.trees ++ (Block.trees thenArm ++ Block.treesOfElse elseArm))
  | .missing => [.expr .missing]
termination_by structural expr => expr

/-- The nodes of some expressions. -/
def Expr.treesOfAll : List Expr → List Tree
  | [] => []
  | expr :: exprs => expr.trees ++ Expr.treesOfAll exprs
termination_by structural exprs => exprs

/-- A statement and all the nodes within it, in pre-order. -/
def Stmt.trees : Stmt → List Tree
  | .declare pos name value => .stmt (.declare pos name value) :: value.trees
  | .assign pos name value => .stmt (.assign pos name value) :: value.trees
  | .expr value => .stmt (.expr value) :: value.trees
  | .result pos value => .stmt (.result pos value) :: value.trees
  | .missing => [.stmt .missing]
termination_by structural stmt => stmt

/-- The nodes of some statements. -/
def Block.trees : List Stmt → List Tree
  | [] => []
  | stmt :: stmts => stmt.trees ++ Block.trees stmts
termination_by structural stmts => stmts

/-- The nodes of the second arm of a choice. -/
def Block.treesOfElse : Option (List Stmt) → List Tree
  | none => []
  | some block => Block.trees block
termination_by structural arm => arm

end

namespace Tree

/-- A node and all the nodes within it, in pre-order. -/
def trees : Tree → List Tree
  | .expr node => node.trees
  | .stmt node => node.trees

/-- The first node within a node, or the node itself, that keeps a position. -/
def leftmost? (tree : Tree) : Option Tree :=
  tree.trees.find? keepsPos

end Tree

/-! ## Nodes that mark tokens -/

/-- The kinds of token that a node always keeps the position of. -/
def Kind.ownKinds : List Kind :=
  [.letWord, .returnWord, .ifWord, .fnWord, .integer, .trueWord, .falseWord, .bang]

/-- Nodes keep the positions of some of the tokens, in their order, among them of all
that always have a node. -/
inductive Marks : List Token → List Tree → Prop where
  | nil : Marks [] []
  | pass {token : Token} {tokens : List Token} {trees : List Tree}
      (kind : token.kind ∉ Kind.ownKinds)
      (rest : Marks tokens trees) :
      Marks (token :: tokens) trees
  | mark {token : Token} {tree : Tree} {tokens : List Token} {trees : List Tree}
      (stands : tree.StandsAt token)
      (rest : Marks tokens trees) :
      Marks (token :: tokens) (tree :: trees)

theorem Tree.StandsAt.pos_eq {token : Token} {tree : Tree} (stands : tree.StandsAt token) :
    tree.pos = token.pos := by
  cases tree with
  | expr node =>
      cases node with
      | unary pos op operand =>
          cases op with
          | negate | not =>
              rw [Tree.pos, Expr.pos]
              exact stands.1
          | other code => cases stands
      | name | int | bool | function | branch =>
          rw [Tree.pos, Expr.pos]
          exact stands.1
      | binary | call | missing => cases stands
  | stmt node =>
      cases node with
      | declare | assign | result =>
          rw [Tree.pos, Stmt.pos]
          exact stands.1
      | expr | missing => cases stands

namespace Marks

variable {tokens tokens' : List Token} {trees trees' : List Tree}

theorem append (first : Marks tokens trees) (second : Marks tokens' trees') :
    Marks (tokens ++ tokens') (trees ++ trees') := by
  induction first with
  | nil => exact second
  | pass kind rest inductionHypothesis => exact .pass kind inductionHypothesis
  | mark stands rest inductionHypothesis => exact .mark stands inductionHypothesis

/-- The nodes keep the positions in the order of the tokens. -/
theorem sublist (marks : Marks tokens trees) :
    (trees.map Tree.pos).Sublist (tokens.map (·.pos)) := by
  induction marks with
  | nil => exact .slnil
  | pass kind rest inductionHypothesis => exact .cons _ inductionHypothesis
  | mark stands rest inductionHypothesis =>
      rw [List.map_cons, stands.pos_eq]
      exact .cons_cons _ inductionHypothesis

theorem exists_token
    (marks : Marks tokens trees)
    {tree : Tree}
    (member : tree ∈ trees) :
    ∃ token ∈ tokens, tree.StandsAt token := by
  induction marks with
  | nil => cases member
  | pass kind rest inductionHypothesis =>
      obtain ⟨token, present, stands⟩ := inductionHypothesis member
      exact ⟨token, List.mem_cons_of_mem _ present, stands⟩
  | mark stands rest inductionHypothesis =>
      rcases List.mem_cons.mp member with rfl | later
      · exact ⟨_, List.mem_cons_self, stands⟩
      · obtain ⟨token, present, stands'⟩ := inductionHypothesis later
        exact ⟨token, List.mem_cons_of_mem _ present, stands'⟩

theorem exists_tree
    (marks : Marks tokens trees)
    {token : Token}
    (member : token ∈ tokens)
    (kind : token.kind ∈ Kind.ownKinds) :
    ∃ tree ∈ trees, tree.StandsAt token := by
  induction marks with
  | nil => cases member
  | pass other rest inductionHypothesis =>
      rcases List.mem_cons.mp member with rfl | later
      · exact absurd kind other
      · exact inductionHypothesis later
  | mark stands rest inductionHypothesis =>
      rcases List.mem_cons.mp member with rfl | later
      · exact ⟨_, List.mem_cons_self, stands⟩
      · obtain ⟨tree, present, stands'⟩ := inductionHypothesis later
        exact ⟨tree, List.mem_cons_of_mem _ present, stands'⟩

end Marks

/-- The nodes of a part of a program and its tokens: those nodes that keep a position mark
tokens, and each of the nodes lies where the first of these within it lies. -/
structure Placed (tokens : List Token) (trees : List Tree) : Prop where
  marks : Marks tokens (trees.filter Tree.keepsPos)
  leftmost : ∀ tree ∈ trees, tree.leftmost?.map Tree.pos = some tree.pos

namespace Placed

variable {token : Token} {tokens tokens' : List Token} {tree : Tree} {trees trees' : List Tree}

theorem nil : Placed [] [] := ⟨.nil, List.forall_mem_nil _⟩

theorem append (first : Placed tokens trees) (second : Placed tokens' trees') :
    Placed (tokens ++ tokens') (trees ++ trees') where
  marks := by
    rw [List.filter_append]
    exact first.marks.append second.marks
  leftmost := List.forall_mem_append.mpr ⟨first.leftmost, second.leftmost⟩

/-- A token without a node in front. -/
theorem pass
    {kind : Kind}
    (equal : token.kind = kind)
    (free : kind ∉ Kind.ownKinds)
    (rest : Placed tokens trees) :
    Placed (token :: tokens) trees :=
  ⟨.pass (equal ▸ free) rest.marks, rest.leftmost⟩

/-- Tokens without nodes in front. -/
theorem passAll
    (kinds : ∀ token ∈ tokens, token.kind ∉ Kind.ownKinds)
    (rest : Placed tokens' trees) :
    Placed (tokens ++ tokens') trees := by
  induction tokens with
  | nil => exact rest
  | cons token tokens inductionHypothesis =>
      rw [List.forall_mem_cons] at kinds
      exact (inductionHypothesis kinds.2).pass rfl kinds.1

/-- A node in front that keeps the position of a token in front. -/
theorem mark
    (keeps : tree.keepsPos = true)
    (stands : tree.StandsAt token)
    (whole : tree.trees = tree :: trees)
    (rest : Placed tokens trees) :
    Placed (token :: tokens) (tree :: trees) where
  marks := by
    rw [List.filter_cons_of_pos keeps]
    exact .mark stands rest.marks
  leftmost := by
    refine List.forall_mem_cons.mpr ⟨?_, rest.leftmost⟩
    rw [Tree.leftmost?, whole, List.find?_cons_of_pos keeps]
    rfl

/-- A node in front that keeps no position, and lies where the first of the others does. -/
theorem wrap
    (tree part : Tree)
    (keeps : tree.keepsPos = false)
    (whole : tree.trees = tree :: (part.trees ++ trees))
    (place : tree.pos = part.pos)
    (member : part ∈ part.trees)
    (rest : Placed tokens (part.trees ++ trees)) :
    Placed tokens tree.trees where
  marks := by
    rw [whole, List.filter_cons_of_neg (by simp [keeps])]
    exact rest.marks
  leftmost := by
    rw [whole]
    refine List.forall_mem_cons.mpr ⟨?_, rest.leftmost⟩
    have first := rest.leftmost part (List.mem_append_left _ member)
    obtain ⟨found, equal, same⟩ := Option.map_eq_some_iff.mp first
    rw [Tree.leftmost?] at equal
    rw [Tree.leftmost?, whole, List.find?_cons_of_neg (by simp [keeps]), List.find?_append, equal,
      place]
    exact congrArg some same

end Placed

theorem Expr.mem_trees (expr : Expr) : Tree.expr expr ∈ expr.trees := by
  cases expr <;> exact List.mem_cons_self

/-- An expression as a statement. -/
theorem Placed.exprStmt
    {tokens : List Token}
    {value : Expr}
    (placed : Placed tokens value.trees) :
    Placed tokens (Stmt.expr value).trees := by
  have whole : (Stmt.expr value).trees = .stmt (.expr value) :: (value.trees ++ []) := by
    rw [Stmt.trees, List.append_nil]
  refine .wrap (.stmt (.expr value)) (.expr value) rfl whole rfl value.mem_trees ?_
  rw [List.append_nil]
  exact placed

/-! ## Derived trees -/

namespace Grammar

theorem Infix.not_mem_ownKinds
    {level : Level}
    {kind : Kind}
    {op : BinaryOp}
    (listed : Infix level kind op) :
    kind ∉ Kind.ownKinds := by
  cases listed <;> decide

theorem Sign.standsAt
    {token : Token}
    {op : UnaryOp}
    (sign : Sign token.kind op)
    (operand : Expr) :
    (Tree.expr (.unary token.pos op operand)).StandsAt token := by
  generalize equal : token.kind = kind at sign
  cases sign with
  | negate => exact ⟨rfl, equal⟩
  | not => exact ⟨rfl, equal⟩

theorem Parameters.not_mem_ownKinds
    {tokens : List Token}
    {names : List Text}
    (derived : Parameters tokens names) :
    ∀ token ∈ tokens, token.kind ∉ Kind.ownKinds := by
  induction derived with
  | one kind => exact List.forall_mem_singleton.mpr (kind ▸ by decide)
  | more kind separated _ inductionHypothesis =>
      refine List.forall_mem_cons.mpr ⟨kind ▸ by decide, ?_⟩
      exact List.forall_mem_cons.mpr ⟨separated ▸ by decide, inductionHypothesis⟩

theorem ParameterList.not_mem_ownKinds
    {tokens : List Token}
    {names : List Text}
    (derived : ParameterList tokens names) :
    ∀ token ∈ tokens, token.kind ∉ Kind.ownKinds := by
  cases derived with
  | none => exact List.forall_mem_nil _
  | some listed => exact listed.not_mem_ownKinds

mutual

/-- The nodes of an expression are placed at its tokens. -/
theorem Expression.placed
    {grouped : Bool}
    {level : Level}
    {tokens : List Token}
    {expr : Expr}
    (derived : Expression grouped level tokens expr) :
    Placed tokens expr.trees := by
  match derived with
  | .int kind inRange => exact .mark rfl ⟨rfl, kind, inRange⟩ rfl .nil
  | .true kind => exact .mark rfl ⟨rfl, kind⟩ rfl .nil
  | .false kind => exact .mark rfl ⟨rfl, kind⟩ rfl .nil
  | .name kind => exact .mark rfl ⟨rfl, kind, rfl⟩ rfl .nil
  | .group opened inner closed =>
      have behind := Placed.nil.pass closed (by decide)
      have whole := (Expression.placed inner).append behind
      rw [List.append_nil] at whole
      exact whole.pass opened (by decide)
  | .function kind opened listed _ closed block =>
      have body := (Braces.placed block).pass closed (by decide)
      exact .mark rfl ⟨rfl, kind⟩ rfl
        ((body.passAll listed.not_mem_ownKinds).pass opened (by decide))
  | .choice choice => exact Choice.placed choice
  | .call called opened _ listed closed =>
      have behind := (ArgumentList.placed listed).append (Placed.nil.pass closed (by decide))
      rw [List.append_nil] at behind
      exact .wrap (.expr (.call _ _)) (.expr _) rfl rfl rfl (Expr.mem_trees _)
        ((Expression.placed called).append (behind.pass opened (by decide)))
  | .sign kind inner =>
      exact .mark rfl (kind.standsAt _) rfl (Expression.placed inner)
  | .binary first kind _ second =>
      have behind := (Expression.placed second).pass rfl kind.not_mem_ownKinds
      exact .wrap (.expr (.binary _ _ _)) (.expr _) rfl rfl rfl (Expr.mem_trees _)
        ((Expression.placed first).append behind)
  | .tighter inner => exact Expression.placed inner
termination_by structural derived

theorem Choice.placed
    {grouped : Bool}
    {tokens : List Token}
    {expr : Expr}
    (derived : Choice grouped tokens expr) :
    Placed tokens expr.trees := by
  match derived with
  | .choice kind test block otherwise =>
      have arms := (Braces.placed block).append (ElseArm.placed otherwise)
      exact .mark rfl ⟨rfl, kind⟩ rfl ((Expression.placed test).append arms)
termination_by structural derived

theorem ElseArm.placed
    {grouped : Bool}
    {tokens : List Token}
    {arm : Option Block}
    (derived : ElseArm grouped tokens arm) :
    Placed tokens (Block.treesOfElse arm) := by
  match derived with
  | .absent => exact .nil
  | .block kind block => exact (Braces.placed block).pass kind (by decide)
  | .chain kind choice =>
      rw [Block.treesOfElse, Block.trees, Block.trees, List.append_nil]
      exact (Choice.placed choice).exprStmt.pass kind (by decide)
termination_by structural derived

theorem ArgumentList.placed
    {tokens : List Token}
    {args : List Expr}
    (derived : ArgumentList tokens args) :
    Placed tokens (Expr.treesOfAll args) := by
  match derived with
  | .none => exact .nil
  | .some listed => exact Arguments.placed listed
termination_by structural derived

theorem Arguments.placed
    {tokens : List Token}
    {args : List Expr}
    (derived : Arguments tokens args) :
    Placed tokens (Expr.treesOfAll args) := by
  match derived with
  | .one only =>
      rw [Expr.treesOfAll, Expr.treesOfAll, List.append_nil]
      exact Expression.placed only
  | .more first separated rest =>
      exact (Expression.placed first).append ((Arguments.placed rest).pass separated (by decide))
termination_by structural derived

theorem Braces.placed
    {tokens : List Token}
    {block : Block}
    (derived : Braces tokens block) :
    Placed tokens (Block.trees block) := by
  match derived with
  | .block opened inner closed =>
      have whole := (Statements.placed inner).append (Placed.nil.pass closed (by decide))
      rw [List.append_nil] at whole
      exact whole.pass opened (by decide)
termination_by structural derived

/-- The nodes of a statement are placed at its tokens. -/
theorem Statement.placed
    {tokens : List Token}
    {stmt : Stmt}
    (derived : Statement tokens stmt) :
    Placed tokens stmt.trees := by
  match derived with
  | .result kind given => exact .mark rfl ⟨rfl, kind⟩ rfl (Expression.placed given)
  | .declare kind named marked given =>
      have value := (Expression.placed given).pass marked (by decide)
      exact .mark rfl ⟨rfl, kind⟩ rfl (value.pass named (by decide))
  | .assign named marked given =>
      exact .mark rfl ⟨rfl, named, rfl⟩ rfl ((Expression.placed given).pass marked (by decide))
  | .choice choice => exact (Choice.placed choice).exprStmt
  | .expr _ given => exact (Expression.placed given).exprStmt
termination_by structural derived

/-- The nodes of statements are placed at their tokens. -/
theorem Statements.placed
    {tokens : List Token}
    {stmts : List Stmt}
    (derived : Statements tokens stmts) :
    Placed tokens (Block.trees stmts) := by
  match derived with
  | .nil => exact .nil
  | .empty kind rest => exact (Statements.placed rest).pass kind (by decide)
  | .last first =>
      rw [Block.trees, Block.trees, List.append_nil]
      exact Statement.placed first
  | .closed first kind rest =>
      exact (Statement.placed first).append ((Statements.placed rest).pass kind (by decide))
  | .adjacent first _ _ rest => exact (Statement.placed first).append (Statements.placed rest)
termination_by structural derived

end

end Grammar

/-! ## Programs -/

namespace Cursor

/-- The tokens passed and those still ahead. -/
theorem Passes.sublist
    {start next : Cursor}
    {tokens ahead : List Token}
    (passes : start.Passes tokens next)
    (later : ahead.Sublist next.rest) :
    (tokens ++ ahead).Sublist start.rest := by
  rw [passes.rest]
  exact later.append_left tokens

end Cursor

namespace Parser

/-- The statement of a round is placed at tokens that the round passes. -/
theorem exists_placed_of_closedStatement
    {start next : Cursor}
    {stmt : Stmt}
    (ungrouped : start.grouped = false)
    (reads : (closedStatement start).run = .ok (stmt, next))
    {ahead : List Token}
    (later : ahead.Sublist next.rest) :
    ∃ tokens, (tokens ++ ahead).Sublist start.rest ∧ Placed tokens stmt.trees := by
  rw [run_closedStatement] at reads
  obtain ⟨_, between, first, closes⟩ := Run.andThen_eq_ok.mp reads
  obtain ⟨_, ends, rfl⟩ := Run.map_eq_ok.mp closes
  obtain ⟨tokens, passes, derived, -⟩ := statement_sound start ungrouped first
  refine ⟨tokens, passes.sublist ?_, derived.placed⟩
  rcases endStatement_sound ends with ⟨semicolon, -, passes'⟩ | ⟨rfl, -⟩
  · exact (List.sublist_append_right _ _).trans (passes'.sublist later)
  · exact later

/-- The statements that are read, round by round, are placed at some of the tokens. -/
theorem Rounds.exists_placed
    {cursor last : Cursor}
    {rounds : List Round}
    (read : Rounds cursor rounds last)
    (ungrouped : cursor.grouped = false) :
    ∃ tokens, tokens.Sublist cursor.rest ∧
      Placed tokens (Block.trees (Result.ofRounds rounds).program) := by
  induction read with
  | ended none => exact ⟨[], List.nil_sublist _, .nil⟩
  | @step cursor last rounds more others inductionHypothesis =>
      obtain ⟨first, -, passes⟩ := Round.exists_passes more
      have skipped := cursor.passes_skipSemicolons
      have start : cursor.skipSemicolons.grouped = false := skipped.grouped_eq.trans ungrouped
      obtain ⟨tokens, later, placed⟩ := inductionHypothesis (passes.grouped_eq.trans start)
      rcases reads : (closedStatement cursor.skipSemicolons).run with ⟨error, stop⟩ | ⟨stmt, next⟩
      · have failed : Round.ofCursor cursor = ⟨cursor.skipSemicolons, .error (error, stop)⟩ := by
          rw [Round.ofCursor, reads]
        have ahead := (List.sublist_append_right _ _).trans (passes.sublist later)
        rw [failed, Result.ofRounds_cons_error]
        exact ⟨tokens, (List.sublist_append_right _ _).trans (skipped.sublist ahead), placed⟩
      · have done : Round.ofCursor cursor = ⟨cursor.skipSemicolons, .ok (stmt, next)⟩ := by
          rw [Round.ofCursor, reads]
        rw [done] at later
        obtain ⟨tokens', ahead, placed'⟩ := exists_placed_of_closedStatement start reads later
        rw [done, Result.ofRounds_cons_ok]
        exact ⟨_, (List.sublist_append_right _ _).trans (skipped.sublist ahead),
          placed'.append placed⟩

end Parser

theorem Block.trees_eq_flatMap (stmts : List Stmt) : Block.trees stmts = stmts.flatMap Stmt.trees := by
  induction stmts with
  | nil => rfl
  | cons stmt stmts inductionHypothesis =>
      rw [Block.trees, List.flatMap_cons, inductionHypothesis]

/-- The nodes that keep a position take those of the tokens, in their order. -/
theorem Placed.offsets_increase
    {tokens stream : List Token}
    {trees : List Tree}
    (placed : Placed tokens trees)
    (within : tokens.Sublist stream)
    (increase : (stream.map (·.pos.offset)).Pairwise (· < ·)) :
    ((trees.filter Tree.keepsPos).map (·.pos.offset)).Pairwise (· < ·) := by
  have sublist := placed.marks.sublist.map (·.offset)
  rw [List.map_map, List.map_map] at sublist
  exact increase.sublist (sublist.trans (within.map _))

/-- Among nodes at different places one is the only node at its place. -/
theorem Tree.filter_eq_singleton
    {trees : List Tree}
    (increase : (trees.map (·.pos.offset)).Pairwise (· < ·))
    {tree : Tree}
    (member : tree ∈ trees) :
    trees.filter (·.pos = tree.pos) = [tree] := by
  obtain ⟨before, behind, rfl⟩ := List.append_of_mem member
  rw [List.map_append, List.map_cons, List.pairwise_append, List.pairwise_cons] at increase
  obtain ⟨-, ⟨later, -⟩, earlier⟩ := increase
  have apart {other : Tree} (differ : other.pos.offset ≠ tree.pos.offset) :
      ¬decide (other.pos = tree.pos) = true :=
    fun same => differ (congrArg (·.offset) (of_decide_eq_true same))
  have none : before.filter (·.pos = tree.pos) = [] :=
    List.filter_eq_nil_iff.mpr fun other present => apart <| Nat.ne_of_lt <|
      earlier _ (List.mem_map_of_mem present) _ List.mem_cons_self
  have none' : behind.filter (·.pos = tree.pos) = [] :=
    List.filter_eq_nil_iff.mpr fun other present => apart <| Nat.ne_of_gt <|
      later _ (List.mem_map_of_mem present)
  rw [List.filter_append, List.filter_cons_of_pos (by simp), none, none', List.nil_append]

/-- Nodes keep the positions of the right tokens, in order, and each that of another one.
In the program that any source text gives, listed in pre-order, the nodes that keep a
position have strictly increasing offsets, and each of them stands at a token of the text
with its kind and content.  An operator between operands, a call and a statement that is
an expression lie where the first of these nodes within it does.  Without syntax errors,
each word `let`, `return`, `if`, `fn`, `true` or `false`, each number and each `!` of the
text has exactly one node that keeps its position, and that one stands at it. -/
theorem nodes_stand_at_their_tokens (source : Text) :
    let program := (Program.ofText source).program
    let nodes := (program.flatMap Stmt.trees).filter Tree.keepsPos
    (nodes.map (·.pos.offset)).Pairwise (· < ·) ∧
    (∀ tree ∈ nodes, ∃ token ∈ Token.ofText source, tree.StandsAt token) ∧
    (∀ tree ∈ program.flatMap Stmt.trees, ∃ first ∈ tree.trees,
      tree.leftmost? = some first ∧ first.keepsPos = true ∧ tree.pos = first.pos) ∧
    ((Program.ofText source).errors = [] →
      ∀ token ∈ Token.ofText source, token.kind ∈ Kind.ownKinds →
        ∃ tree, nodes.filter (·.pos = token.pos) = [tree] ∧ tree.StandsAt token) := by
  intro program nodes
  have layout : Layout [] (Token.ofText source) source := Lexer.layout_tokenize rfl
  have increase := layout.offsets_increase
  have part : (Cursor.ofTokens (Token.ofText source)).rest.Sublist (Token.ofText source) :=
    List.takeWhile_sublist _
  obtain ⟨rounds, last, read⟩ := Parser.exists_rounds (.ofTokens (Token.ofText source))
  obtain ⟨tokens, within, placed⟩ := read.exists_placed rfl
  rw [← read.program_eq, Block.trees_eq_flatMap] at placed
  refine ⟨placed.offsets_increase (within.trans part) increase, ?_, ?_, ?_⟩
  · intro tree member
    obtain ⟨token, present, stands⟩ := placed.marks.exists_token member
    exact ⟨token, (within.trans part).subset present, stands⟩
  · intro tree member
    obtain ⟨first, found, same⟩ := Option.map_eq_some_iff.mp (placed.leftmost tree member)
    exact ⟨first, List.mem_of_find?_eq_some found, found, List.find?_some found, same.symm⟩
  · intro clean token present kind
    have derived := Parser.program_sound (.ofTokens (Token.ofText source)) rfl clean
    have placed := derived.placed
    rw [Block.trees_eq_flatMap] at placed
    have read : token ∈ (Cursor.ofTokens (Token.ofText source)).rest := by
      obtain ⟨words, equal, others⟩ := layout.exists_stop
      rw [equal, Cursor.rest_ofTokens others rfl]
      rw [equal] at present
      refine (List.mem_append.mp present).resolve_right fun last => ?_
      rw [List.mem_singleton.mp last] at kind
      exact absurd kind (by decide : Kind.endOfInput ∉ Kind.ownKinds)
    obtain ⟨tree, member, stands⟩ := placed.marks.exists_tree read kind
    refine ⟨tree, ?_, stands⟩
    rw [← stands.pos_eq]
    exact Tree.filter_eq_singleton (placed.offsets_increase part increase) member

/-- A sign within a call and an operator between operands. -/
theorem nodes_stand_at_their_tokens_sign :
    let source : Text := "f(!g) + 1"
    let sign : Token := ⟨.bang, "!", ⟨1, 3, 2⟩⟩
    let nodes := ((Program.ofText source).program.flatMap Stmt.trees).filter Tree.keepsPos
    (Program.ofText source).errors = [] ∧ sign ∈ Token.ofText source ∧
      ∃ tree, nodes.filter (·.pos = sign.pos) = [tree] ∧ tree.StandsAt sign := by
  intro source sign nodes
  have clean : (Program.ofText source).errors = [] := by decide +kernel
  have present : sign ∈ Token.ofText source := by decide +kernel
  exact ⟨clean, present,
    (nodes_stand_at_their_tokens source).2.2.2 clean sign present (by decide)⟩

end Siren
