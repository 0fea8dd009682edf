import ScalarScript.Token.Scanner

/-!
# `ScalarScript.Token.Source`: where tokens come from

A parser takes its tokens from a source, one at a time and only when it
needs them. A source has a size that every token but the end makes
smaller, so a reader of tokens ends. The scanner of a text is a source,
and so is a list of tokens.
-/

set_option autoImplicit false

namespace ScalarScript

/-- Something that gives tokens, or an error, and goes on. -/
class TokenSource (σ : Type) where
  next : σ → Except TokenError Token × σ
  size : σ → Nat
  /-- A token that is not the end makes the source smaller. -/
  size_next : ∀ {s s' : σ} {t : Token}, next s = (.ok t, s') → size s' + t.weight ≤ size s

instance : TokenSource Scanner where
  next := Scanner.next
  size := Scanner.size
  size_next := Scanner.size_next_add_weight_le

/-- Gives the tokens of a list in turn. An end in it is never used up, and
behind the last token there is an end too. -/
def nextOfList : List Token → Except TokenError Token × List Token
  | [] => (.ok ⟨.endOfText, .start⟩, [])
  | t :: rest => (.ok t, if t.weight = 0 then t :: rest else rest)

instance : TokenSource (List Token) where
  next := nextOfList
  size := List.length
  size_next := by
    intro s s' t h
    cases s with
    | nil =>
      cases h
      simp [Token.weight]
    | cons u rest =>
      cases h
      have : t.weight ≤ 1 := t.weight_le_one
      split <;> simp_all

end ScalarScript
