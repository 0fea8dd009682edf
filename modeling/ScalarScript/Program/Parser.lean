import ScalarScript.Program
import ScalarScript.Stmt.Parser

/-!
# `ScalarScript.Program.Parser`: reading programs

    program   := function* end
    function  := name "(" (parameter ("," parameter)*)? ")" "returns" type block
    parameter := name ":" type

A program that is in error leaves the parser where reading stopped, and
the next program is read from there.
-/

set_option autoImplicit false

namespace ScalarScript.Parser

variable {σ : Type} [TokenSource σ]

/-- Reads the parameter that starts here, if one does. -/
def parameter? (p : Parser σ) : Attempt σ p.size Parameter :=
  p.identifier?.map fun named => named.andThen fun (name, position) q _ =>
    .loose <| (q.expect .colon).andThen fun _ r _ =>
      .loose <| (r.expectAmong variableTypes).map fun (type, _) => ⟨name, type, position⟩

/-- Reads further parameters, each behind a comma. A name that was read
before is refused. -/
def parametersRest (function : String) (before : List Parameter) (p : Parser σ) :
    Parsed σ (p.size + 1) (List Parameter) :=
  match p.acceptSymbol? (only .comma) with
  | .absent q hq => .done before q hq
  | .found comma => .loose <| comma.andThen fun _ q hq =>
    match q.parameter? with
    | .absent r _ => .error (r.unexpected [.identifier]) r
    | .found read => .loose <| read.andThen fun param r hr =>
      have _hrp := lt_trans hr hq
      if before.any fun b => b.name == param.name then
        .error (.duplicateParameter function param.name param.position) r
      else parametersRest function (before ++ [param]) r
termination_by p.size
decreasing_by exact _hrp

/-- Reads the parameters of a function, of which there may be none. -/
def parameters (function : String) (p : Parser σ) : Parsed σ (p.size + 1) (List Parameter) :=
  match p.parameter? with
  | .absent q hq => .done [] q hq
  | .found read => .loose <| read.andThen fun first q _ => parametersRest function [first] q

/-- The parser outside of all loops. -/
def outsideLoops (p : Parser σ) : Parser σ :=
  { p with loops := 0 }

/-- Reads the body of a function, which has to stand here. -/
def expectFunctionBody (name : String) (p : Parser σ) :
    Parsed σ p.size (List Stmt × Position) :=
  p.functionBody?.orError fun q => .missingBody (.function name) q.current.position

/-- Reads the function that starts here, if one does. -/
def function? (p : Parser σ) : Attempt σ p.size FunctionDecl :=
  p.identifier?.map fun named => named.andThen fun (name, position) q _ =>
    .loose <| (q.expect .leftParen).andThen fun _ q _ =>
    (q.parameters name).andThen fun params q _ =>
    .loose <| (q.expect .rightParen).andThen fun _ q _ =>
    .loose <| (q.expect .returnsWord).andThen fun _ q _ =>
    .loose <| (q.expectAmong resultTypes).andThen fun (result, _) q _ =>
    .loose <| (expectFunctionBody name q.outsideLoops).map fun (ss, bodyPosition) =>
      ⟨name, params, result, ss, bodyPosition, position⟩

/-- Reads functions into a program as long as one starts. -/
def functions (program : Program) (p : Parser σ) : Parsed σ (p.size + 1) Program :=
  match p.function? with
  | .absent q hq => .done program q hq
  | .found read => .loose <| read.andThen fun f q _hq =>
    match program.add f with
    | .error e => .error e q
    | .ok program => functions program q
termination_by p.size
decreasing_by exact _hq

/-- Reads the end of the text, which has to stand here. -/
def expectEnd (p : Parser σ) : Parsed σ (p.size + 1) Token :=
  match p.current.lexeme with
  | .endOfText => p.advance p.size_lt_succ_add_weight
  | _ => .error (p.unexpected [.endOfText]) p

/-- Reads a program, up to and with the end of the text. -/
def program (p : Parser σ) : Except ParseError Program × Parser σ :=
  ((functions .empty p).andThen fun program q _ => q.expectEnd.map fun _ => program).result

end ScalarScript.Parser

namespace ScalarScript.Program

/-- The program that a source of tokens spells. -/
def ofSource {σ : Type} [TokenSource σ] (source : σ) : Except ParseError Program :=
  match Parser.start source with
  | .ok p => p.program.1
  | .error e => .error e

/-- The program that a text spells, whose strings may have `limit`
characters. -/
def ofString (text : String) (limit : Nat) : Except ParseError Program :=
  ofSource (Scanner.ofString text limit)

end ScalarScript.Program
