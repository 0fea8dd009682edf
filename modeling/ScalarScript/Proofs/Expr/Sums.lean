import Mathlib.Algebra.BigOperators.Group.List.Basic
import ScalarScript.Proofs.Integer
import ScalarScript.Proofs.Parser.Progress
import ScalarScript.Proofs.Run.Outcome

/-!
# `ScalarScript.Proofs.Expr.Sums`: sums and differences as they are written

A text such as `a - b + c` has a running value: the value of `a`, then
`a - b`, then `a - b + c`. The tree of the text is one sum, in which what
is subtracted is negated first. So the evaluation makes an operation
that the text does not show, and that operation has a bound of its own:
the least integer has no opposite in range.

`Summand` is an operand with the sign in front of it.
`Summand.sum_of_running` says that this is the only difference. If the
running value stays in range and the least integer is not subtracted
anywhere, then the sum has the exact value. If the running value stays in
range up to the first place where the least integer is subtracted, then
it is refused there, whatever the difference is.
`Summand.sum_least_subtracted` is a text in which the difference is in
range and is refused all the same.
-/

set_option autoImplicit false

namespace ScalarScript

open Grammar

/-- An operand of a sum behind the first one, with the sign in front of
it, its tokens, and the integer that it evaluates to. -/
structure Summand where
  subtracted : Bool
  sign : Position
  tokens : List Token
  operand : Expr
  value : Int64
  derives : Derives (.chain .product) tokens operand

namespace Summand

/-- The tokens of a summand, from its sign on. -/
def text (s : Summand) : List Token :=
  mark (if s.subtracted then .minus else .plus) s.sign :: s.tokens

/-- The operand as it stands in the sum. -/
def tree (s : Summand) : Expr :=
  if s.subtracted then .unary .negate s.operand s.sign else s.operand

/-- What the running value changes by at the summand. -/
def change (s : Summand) : Int :=
  if s.subtracted then -s.value.toInt else s.value.toInt

/-- The summand takes the least integer away. -/
def TakesLeast (s : Summand) : Prop :=
  s.subtracted = true ∧ s.value.toInt = -2 ^ 63

instance (s : Summand) : Decidable s.TakesLeast :=
  inferInstanceAs (Decidable (_ ∧ _))

/-- The tree of a text of a first operand and summands. -/
def sum (first : Expr) (summands : List Summand) : Expr :=
  .arithmetic .add (first :: summands.map tree) first.position

/-! ### Reading -/

/-- The texts of summands carry a sum on. -/
theorem links (summands : List Summand) :
    Links .sum (summands.flatMap text) (summands.map tree) := by
  induction summands with
  | nil => exact .nil
  | cons s summands ih =>
    have hjoins : Joins .sum (if s.subtracted then .minus else .plus) s.sign s.operand s.tree := by
      unfold tree
      split
      · exact .minus s.sign s.operand
      · exact .plus s.sign s.operand
    exact .cons hjoins s.derives ih

variable {σ : Type} [TokenSource σ]

/-- The text of a sum is read as its tree, wherever a sum may stand and
also as a whole expression. -/
theorem started_sum {p q : Parser σ} {ts : List Token} {first : Expr}
    (hfirst : Derives (.chain .product) ts first) (s : Summand) (summands : List Summand)
    (hreads : p.Reads (ts ++ (s :: summands).flatMap text) q) :
    ((Level.chain .sum).EndsAt q.current →
      Started (Parser.levelReader (fun r _ => r.expression?) (.chain .sum) p p.le_refl)
        (sum first (s :: summands)) q) ∧
      (Level.top.EndsAt q.current → Started p.expression? (sum first (s :: summands)) q) := by
  have hsum : Derives (.chain .sum) (ts ++ (s :: summands).flatMap text)
      (sum first (s :: summands)) := .chain hfirst (links (s :: summands))
  have hcomplete := Parser.chain_complete (c := .sum) <| Parser.chain_complete (c := .product) <|
    Parser.unary_complete <|
      Parser.primary_complete (@Parser.completeNested_expression? σ _ p)
  constructor
  · simp only [Parser.levelReader, Chain.operand]
    exact hcomplete p _ _ _ q hreads hsum
  · exact Parser.expression?_complete p _ _ q hreads (.single <| .single <| .uncompared hsum)

/-! ### Evaluation -/

variable {call : Caller} {vars : Bindings} {t t' : Terminal}

/-- A list of expressions is evaluated from the left, each at the terminal
that the one before has left. -/
theorem evalAll_cons_eq_ok_iff (e : Expr) (es : List Expr) (v : Value) (vs : List Value) :
    evalAll call vars (e :: es) t = .ok (v :: vs) t' ↔
      ∃ t₁, e.eval call vars t = .ok v t₁ ∧ evalAll call vars es t₁ = .ok vs t' := by
  simp only [evalAll, Run.bind_eq_ok_iff, Run.pure_eq_ok_iff]
  constructor
  · rintro ⟨v', t₁, hv, vs', t₂, hvs, heq, rfl⟩
    cases heq
    exact ⟨t₁, hv, hvs⟩
  · rintro ⟨t₁, hv, hvs⟩
    exact ⟨v, t₁, hv, vs, t', hvs, rfl, rfl⟩

/-- An operand is negated if it is subtracted, and only the least integer
cannot be. -/
theorem tree_eval {s : Summand} (hs : ¬s.TakesLeast)
    (heval : s.operand.eval call vars t = .ok (.int s.value) t') :
    Integer.InRange s.change ∧
      s.tree.eval call vars t = .ok (.int (Int64.ofInt s.change)) t' := by
  have hvalue := Integer.inRange_toInt s.value
  unfold tree change TakesLeast at *
  cases hsub : s.subtracted with
  | false =>
    simpa [hvalue] using heval
  | true =>
    have hrange : Integer.InRange (-s.value.toInt) := by
      simp only [hsub, true_and] at hs
      simp only [Integer.InRange] at hvalue ⊢
      omega
    simp only [if_true, Expr.eval, Run.bind_apply, heval, UnaryOp.apply, Integer.neg?,
      Integer.ofInt?_of_inRange hrange]
    exact ⟨hrange, rfl⟩

/-- The least integer that is subtracted is reported at its sign. -/
theorem tree_eval_of_takesLeast {s : Summand} (hs : s.TakesLeast)
    (heval : s.operand.eval call vars t = .ok (.int s.value) t') :
    s.tree.eval call vars t = .error (.integerOverflow (.negate s.value) s.sign) t' := by
  obtain ⟨hsub, hleast⟩ := hs
  have hrange : ¬Integer.InRange (-s.value.toInt) := by
    simp only [Integer.InRange]
    omega
  simp only [tree, hsub, if_true, Expr.eval, Run.bind_apply, heval, UnaryOp.apply, Integer.neg?,
    Integer.ofInt?_of_not_inRange hrange]
  rfl

/-- Taking a summand into a running value that stays in range. -/
theorem evalArithmetic_cons {s : Summand} {total : Int} (htotal : Integer.InRange total)
    (hsum : Integer.InRange (total + s.change)) (hs : ¬s.TakesLeast)
    (heval : s.operand.eval call vars t = .ok (.int s.value) t') (es : List Expr) :
    evalArithmetic call vars .add (.int (Int64.ofInt total)) (s.tree :: es) t =
      evalArithmetic call vars .add (.int (Int64.ofInt (total + s.change))) es t' := by
  obtain ⟨hchange, htree⟩ := tree_eval hs heval
  have hadd : Integer.add? (Int64.ofInt total) (Int64.ofInt s.change) =
      some (Int64.ofInt (total + s.change)) := by
    rw [Integer.add?, Integer.toInt_ofInt htotal, Integer.toInt_ofInt hchange,
      Integer.ofInt?_of_inRange hsum]
  rw [evalArithmetic, Run.bind_apply, htree]
  simp only [ArithmeticOp.combine, ArithmeticOp.onIntegers?, hadd]
  rfl

/-- The value that a total has behind some summands. -/
def running (total : Int) (summands : List Summand) : Int :=
  total + (summands.map change).sum

@[simp] theorem running_nil (total : Int) : running total [] = total := by
  simp [running]

@[simp] theorem running_cons (total : Int) (s : Summand) (summands : List Summand) :
    running total (s :: summands) = running (total + s.change) summands := by
  simp [running, Int.add_assoc]

/-- The running value is in range in front of the summands and behind each
of them. -/
def StaysInRange (total : Int) (summands : List Summand) : Prop :=
  ∀ front, front <+: summands → Integer.InRange (running total front)

/-- A running value that stays in range is in range at the end. -/
theorem StaysInRange.inRange {total : Int} {summands : List Summand}
    (h : StaysInRange total summands) : Integer.InRange (running total summands) :=
  h summands (List.prefix_refl summands)

/-- The running value that the first summand leads to stays in range too. -/
theorem StaysInRange.tail {total : Int} {s : Summand} {summands : List Summand}
    (h : StaysInRange total (s :: summands)) : StaysInRange (total + s.change) summands := by
  intro front hfront
  rw [← running_cons]
  exact h (s :: front) (by simpa using hfront)

/-- Summands that keep the running value in range and take no least
integer away are taken in one by one. -/
theorem evalArithmetic_append {total : Int} {summands : List Summand}
    (hrunning : StaysInRange total summands)
    (hnone : ∀ s ∈ summands, ¬s.TakesLeast)
    (heval : evalAll call vars (summands.map operand) t =
      .ok (summands.map fun s => .int s.value) t') (es : List Expr) :
    evalArithmetic call vars .add (.int (Int64.ofInt total)) (summands.map tree ++ es) t =
      evalArithmetic call vars .add (.int (Int64.ofInt (running total summands))) es t' := by
  induction summands generalizing total t with
  | nil =>
    obtain ⟨-, rfl⟩ := (Run.pure_eq_ok_iff _ _ _ _).mp heval
    simp
  | cons s summands ih =>
    obtain ⟨t₁, hfirst, hrest⟩ := (evalAll_cons_eq_ok_iff _ _ _ _).mp heval
    have htotal : Integer.InRange total := by simpa using hrunning [] (by simp)
    have hsum : Integer.InRange (total + s.change) := by simpa using hrunning [s] (by simp)
    rw [List.map_cons, List.cons_append,
      evalArithmetic_cons htotal hsum (hnone s (by simp)) hfirst, running_cons]
    exact ih hrunning.tail (fun s' hs' => hnone s' (List.mem_cons_of_mem s hs')) hrest

/-- The values of some operands and of those behind them. -/
theorem evalAll_append_eq_ok {summands : List Summand} {es : List Expr} {vs : List Value}
    (h : evalAll call vars (summands.map operand ++ es) t =
      .ok (summands.map (fun s => .int s.value) ++ vs) t') :
    ∃ t₁, evalAll call vars (summands.map operand) t =
        .ok (summands.map fun s => .int s.value) t₁ ∧ evalAll call vars es t₁ = .ok vs t' := by
  induction summands generalizing t with
  | nil => exact ⟨t, rfl, h⟩
  | cons s summands ih =>
    obtain ⟨t₁, hs, hrest⟩ := (evalAll_cons_eq_ok_iff _ _ _ _).mp h
    obtain ⟨t₂, hsummands, hes⟩ := ih hrest
    exact ⟨t₂, (evalAll_cons_eq_ok_iff _ _ _ _).mpr ⟨t₁, hs, hsummands⟩, hes⟩

/-- A sum behind its first operand and some summands. The empty sum, from
which the evaluation starts, leaves the first operand as it is. -/
theorem sum_eval_append {first : Expr} {n : Int64} {front : List Summand}
    (hrunning : StaysInRange n.toInt front)
    (hnone : ∀ s ∈ front, ¬s.TakesLeast)
    (heval : evalAll call vars (first :: front.map operand) t =
      .ok (.int n :: front.map fun s => .int s.value) t') (back : List Summand) :
    (sum first (front ++ back)).eval call vars t =
      evalArithmetic call vars .add (.int (Int64.ofInt (running n.toInt front)))
        (back.map tree) t' := by
  obtain ⟨t₁, hfirst, hfront⟩ := (evalAll_cons_eq_ok_iff _ _ _ _).mp heval
  have hadd : Integer.add? 0 n = some n := by
    rw [Integer.add?, Int64.toInt_zero, Int.zero_add,
      Integer.ofInt?_of_inRange (Integer.inRange_toInt n), Int64.ofInt_toInt]
  rw [sum, List.map_append, Expr.eval, evalArithmetic, Run.bind_apply, hfirst,
    ← evalArithmetic_append hrunning hnone hfront, Int64.ofInt_toInt]
  simp only [ArithmeticOp.combine, ArithmeticOp.onIntegers?, ArithmeticOp.unit, hadd]
  rfl

/-- The text of a sum is read as its tree. If the running value stays in
range and the least integer is not subtracted in it, then the sum has the
exact value. If the running value stays in range in front of the first
summand that subtracts the least integer, then this one is refused, at its
sign. -/
theorem sum_of_running {p q : Parser σ} {ts : List Token} {first : Expr}
    (hfirst : Derives (.chain .product) ts first) (s : Summand) (summands : List Summand)
    (hreads : p.Reads (ts ++ (s :: summands).flatMap text) q) {n : Int64}
    (heval : evalAll call vars (first :: (s :: summands).map operand) t =
      .ok (.int n :: (s :: summands).map fun s => .int s.value) t') :
    (((Level.chain .sum).EndsAt q.current →
        Started (Parser.levelReader (fun r _ => r.expression?) (.chain .sum) p p.le_refl)
          (sum first (s :: summands)) q) ∧
        (Level.top.EndsAt q.current → Started p.expression? (sum first (s :: summands)) q)) ∧
      (StaysInRange n.toInt (s :: summands) → (∀ s' ∈ s :: summands, ¬s'.TakesLeast) →
        ∃ v : Int64, v.toInt = running n.toInt (s :: summands) ∧
          (sum first (s :: summands)).eval call vars t = .ok (.int v) t') ∧
      ∀ before s' after, s :: summands = before ++ s' :: after →
        StaysInRange n.toInt before → (∀ s'' ∈ before, ¬s''.TakesLeast) → s'.TakesLeast →
        ∃ t'', (sum first (s :: summands)).eval call vars t =
          .error (.integerOverflow (.negate s'.value) s'.sign) t'' := by
  refine ⟨started_sum hfirst s summands hreads, fun hrunning hnone => ?_,
    fun before s' after hsummands hrunning hbefore hs' => ?_⟩
  · refine ⟨Int64.ofInt (running n.toInt (s :: summands)),
      Integer.toInt_ofInt hrunning.inRange, ?_⟩
    have hsum := sum_eval_append hrunning hnone heval []
    rw [List.append_nil] at hsum
    rw [hsum]
    rfl
  · rw [hsummands] at heval ⊢
    rw [List.map_append, List.map_append] at heval
    -- The evaluation comes as far as the operand of `s'`, and stops at the sign before it.
    obtain ⟨t₁, hn, hrest⟩ := (evalAll_cons_eq_ok_iff _ _ _ _).mp heval
    obtain ⟨t₂, hfront, hrest⟩ := evalAll_append_eq_ok hrest
    obtain ⟨t₃, hoperand, -⟩ := (evalAll_cons_eq_ok_iff _ _ _ _).mp hrest
    have hsum := sum_eval_append hrunning hbefore
      ((evalAll_cons_eq_ok_iff _ _ _ _).mpr ⟨t₁, hn, hfront⟩) (s' :: after)
    rw [hsum, List.map_cons, evalArithmetic, Run.bind_apply, tree_eval_of_takesLeast hs' hoperand]
    exact ⟨t₃, rfl⟩

/-- A literal behind a minus sign. -/
def subtractedInt (n : Int64) (sign place : Position) : Summand :=
  ⟨true, sign, [⟨.int n, place⟩], .int n place, n, .single (.plain (.int n place))⟩

/-- The tokens of `(-9223372036854775807 - 1)` from column `c` on. -/
def leastTokens (x : Nat → Position) (c : Nat) : List Token :=
  [mark .leftParen (x c), mark .minus (x (c + 1)), ⟨.int 9223372036854775807, x (c + 2)⟩,
    mark .minus (x (c + 22)), ⟨.int 1, x (c + 24)⟩, mark .rightParen (x (c + 25))]

/-- The tree of `-9223372036854775807 - 1` behind the parenthesis in
column `c`. Its value is the least integer. -/
def leastTree (x : Nat → Position) (c : Nat) : Expr :=
  .arithmetic .add [.unary .negate (.int 9223372036854775807 (x (c + 2))) (x (c + 1)),
    .unary .negate (.int 1 (x (c + 24))) (x (c + 22))] (x (c + 1))

/-- The tokens spell the tree, wherever an operand of a sum may stand. -/
theorem derives_leastTree (x : Nat → Position) (c : Nat) :
    Derives (.chain .product) (leastTokens x c) (leastTree x c) := by
  have hinner : Derives .top [mark .minus (x (c + 1)), ⟨.int 9223372036854775807, x (c + 2)⟩,
      mark .minus (x (c + 22)), ⟨.int 1, x (c + 24)⟩] (leastTree x c) :=
    .single <| .single <| .uncompared <|
      .chain (c := .sum) (.single (c := .product) (.prefixed .minus (.int _ _)))
        (.cons (.minus _ _) (.single (c := .product) (.plain (.int _ _))) .nil)
  exact .single (.plain (.parenthesis hinner))

/-- The least integer behind a minus sign, as a difference in parentheses
from column `c` on. -/
def subtractedLeast (sign : Position) (x : Nat → Position) (c : Nat) : Summand :=
  ⟨true, sign, leastTokens x c, leastTree x c, Int64.ofInt (-2 ^ 63), derives_leastTree x c⟩

/-- The text `0 - 9223372036854775807 - 1;`, whose running value ends at
the least integer, and the text `0 - (-9223372036854775807 - 1);`, whose
running value leaves the range where the least integer is subtracted. -/
theorem sum_of_running_to_least :
    let x : Nat → Position := fun column => ⟨1, column, column⟩
    let p : Parser (List Token) := ⟨⟨.int 0, x 1⟩, [mark .minus (x 3),
      ⟨.int 9223372036854775807, x 5⟩, mark .minus (x 25), ⟨.int 1, x 27⟩,
      mark .semicolon (x 28)], 0⟩
    let e : Expr := .arithmetic .add [.int 0 (x 1),
      .unary .negate (.int 9223372036854775807 (x 5)) (x 3),
      .unary .negate (.int 1 (x 27)) (x 25)] (x 1)
    let p' : Parser (List Token) := ⟨⟨.int 0, x 1⟩, [mark .minus (x 3), mark .leftParen (x 5),
      mark .minus (x 6), ⟨.int 9223372036854775807, x 7⟩, mark .minus (x 27), ⟨.int 1, x 29⟩,
      mark .rightParen (x 30), mark .semicolon (x 31)], 0⟩
    let e' : Expr := .arithmetic .add [.int 0 (x 1), .unary .negate (.arithmetic .add
      [.unary .negate (.int 9223372036854775807 (x 7)) (x 6),
        .unary .negate (.int 1 (x 29)) (x 27)] (x 6)) (x 3)] (x 1)
    let call : Caller := fun f _ p => Run.fail (.undefinedFunction f p)
    (Started p.expression? e ⟨mark .semicolon (x 28), [], 0⟩ ∧
      ∃ v : Int64, v.toInt = -2 ^ 63 ∧
        e.eval call [] (.scripted []) = .ok (.int v) (.scripted [])) ∧
    Started p'.expression? e' ⟨mark .semicolon (x 31), [], 0⟩ ∧
      ∃ t, e'.eval call [] (.scripted []) =
        .error (.integerOverflow (.negate (Int64.ofInt (-2 ^ 63))) (x 3)) t := by
  intro x p e p' e' call
  have hzero : Derives (.chain .product) [⟨.int 0, x 1⟩] (.int 0 (x 1)) :=
    .single (.plain (.int 0 (x 1)))
  constructor
  · let greatest := subtractedInt 9223372036854775807 (x 3) (x 5)
    let one := subtractedInt 1 (x 25) (x 27)
    have hreads : p.Reads ([⟨.int 0, x 1⟩] ++ [greatest, one].flatMap text)
        ⟨mark .semicolon (x 28), [], 0⟩ := by
      repeat refine ⟨rfl, rfl, _, ⟨_, _, rfl, rfl⟩, ?_⟩
      rfl
    have heval : evalAll call [] (.int 0 (x 1) :: [greatest, one].map operand) (.scripted []) =
        .ok (.int 0 :: [greatest, one].map fun s => .int s.value) (.scripted []) := rfl
    have hrunning : StaysInRange (Int64.toInt 0) [greatest, one] := by
      intro front hfront
      simp only [List.prefix_cons_iff, List.prefix_nil] at hfront
      obtain rfl | ⟨_, rfl, rfl | ⟨_, rfl, rfl⟩⟩ := hfront <;> decide
    obtain ⟨⟨-, hstarted⟩, hvalue, -⟩ := sum_of_running hzero greatest [one] hreads heval
    exact ⟨hstarted (Level.EndsAt.of_mark (by decide)), hvalue hrunning (by decide)⟩
  · let least := subtractedLeast (x 3) x 5
    have hreads : p'.Reads ([⟨.int 0, x 1⟩] ++ [least].flatMap text)
        ⟨mark .semicolon (x 31), [], 0⟩ := by
      repeat refine ⟨rfl, rfl, _, ⟨_, _, rfl, rfl⟩, ?_⟩
      rfl
    have heval : evalAll call [] (.int 0 (x 1) :: [least].map operand) (.scripted []) =
        .ok (.int 0 :: [least].map fun s => .int s.value) (.scripted []) := rfl
    -- Only the value in front of the sign is asked to be in range.
    have hrunning : StaysInRange (Int64.toInt 0) [] := by
      intro front hfront
      obtain rfl := List.prefix_nil.mp hfront
      decide
    obtain ⟨⟨-, hstarted⟩, -, hrefused⟩ := sum_of_running hzero least [] hreads heval
    exact ⟨hstarted (Level.EndsAt.of_mark (by decide)),
      hrefused [] least [] rfl hrunning (by simp) (by decide)⟩

/-- The text `-1 - (-9223372036854775807 - 1);`. The difference of its two
operands is the greatest integer, and is refused. -/
theorem sum_least_subtracted :
    let x : Nat → Position := fun column => ⟨1, column, column⟩
    let p : Parser (List Token) := ⟨mark .minus (x 1), [⟨.int 1, x 2⟩, mark .minus (x 4),
      mark .leftParen (x 6), mark .minus (x 7), ⟨.int 9223372036854775807, x 8⟩,
      mark .minus (x 28), ⟨.int 1, x 30⟩, mark .rightParen (x 31), mark .semicolon (x 32)], 0⟩
    let first : Expr := .unary .negate (.int 1 (x 2)) (x 1)
    let second : Expr := .arithmetic .add [.unary .negate (.int 9223372036854775807 (x 8)) (x 7),
      .unary .negate (.int 1 (x 30)) (x 28)] (x 7)
    let e : Expr := .arithmetic .add [first, .unary .negate second (x 4)] (x 1)
    let call : Caller := fun f _ p => Run.fail (.undefinedFunction f p)
    Started p.expression? e ⟨mark .semicolon (x 32), [], 0⟩ ∧
    evalAll call [] [first, second] (.scripted []) =
      .ok [.int (-1), .int (Int64.ofInt (-2 ^ 63))] (.scripted []) ∧
    Integer.InRange (-1 - -2 ^ 63) ∧
    e.eval call [] (.scripted []) =
      .error (.integerOverflow (.negate (Int64.ofInt (-2 ^ 63))) (x 4)) (.scripted []) := by
  intro x p first second e call
  have hwhole : Derives .top ([mark .minus (x 1), ⟨.int 1, x 2⟩] ++
      (mark .minus (x 4) :: (leastTokens x 6 ++ []))) e :=
    .single <| .single <| .uncompared <|
      .chain (c := .sum) (.single (c := .product) (.prefixed .minus (.int _ _)))
        (.cons (.minus _ _) (derives_leastTree x 6) .nil)
  refine ⟨Parser.expression?_complete p _ e _ ?_ hwhole (Level.EndsAt.of_mark (by decide)), rfl,
    by decide, rfl⟩
  repeat refine ⟨rfl, rfl, _, ⟨_, _, rfl, rfl⟩, ?_⟩
  rfl

end Summand

end ScalarScript
