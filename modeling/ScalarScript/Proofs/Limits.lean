import ScalarScript.Proofs.Parser.Simulation
import ScalarScript.Proofs.Run.Simulation

/-!
# `ScalarScript.Proofs.Limits`: higher limits

Raising the limits changes no run that did not meet them. A text is read
and run twice here, the second time with limits that are at least as
high, and each stage is compared:

* `simulates_of_limit_le`: a scanner with a higher limit gives the same
  tokens, up to a string that is too long for the first one. By
  `Program.ofSource_agrees` the text then spells the same program or
  meets the same error.
* `Run.Within` relates a run to the same one with a greater call budget.
  If the first uses up its budget, what it has printed is the beginning
  of what the second prints; any other end is the end of the second too.
  It is a congruence, so `Scope.run_related` carries it over all runs.

A run has no outcome if its loops are given too few rounds. `Ends` says
how it ends once they are given enough, and for the run of a text this is
unique (`settles_executeText`). `ends_of_limits_le` joins the two stages.
-/

set_option autoImplicit false

namespace ScalarScript

/-! ### Strings that are too long -/

/-- The error that a string is longer than the limit. -/
def TokenError.isTooLong : TokenError → Bool
  | .stringTooLong _ _ => true
  | _ => false

namespace Scanner

/-- More room changes nothing, unless the first room was too little. -/
theorem stringBody_of_room_le (opening : Position) (limit limit' : Nat) (quote : Char)
    {room room' : Nat} (hroom : room ≤ room') (cs : List Char) (p : Position) :
    (∃ e c, stringBody opening limit quote room cs p = (.error e, c) ∧ e.isTooLong = true) ∨
      stringBody opening limit' quote room' cs p = stringBody opening limit quote room cs p := by
  -- The two bodies take the same branches, since there is room in the second where there is room
  -- in the first.
  fun_induction stringBody opening limit quote room cs p generalizing room' with
  | case1 room p =>
    right
    rw [stringBody.eq_def]
  | case2 room rest p =>
    right
    rw [stringBody.eq_def]
    simp only [if_true]
  | case3 c rest p hquote => exact .inl ⟨_, _, rfl, rfl⟩
  | case4 room p hroom' hquote =>
    right
    rw [stringBody.eq_def]
    simp only [if_neg hquote, if_neg (show ¬ room' = 0 by omega), if_true]
  | case5 room p hroom' e rest hquote ih =>
    rcases ih (Nat.sub_le_sub_right hroom _) with ⟨e', c, heq, he⟩ | heq
    · exact .inl ⟨e', c, by rw [heq]; rfl, he⟩
    · right
      rw [stringBody.eq_def]
      simp only [if_neg hquote, if_neg (show ¬ room' = 0 by omega), if_true, heq]
  | case6 room c rest p hquote hroom' hslash ih =>
    rcases ih (Nat.sub_le_sub_right hroom _) with ⟨e, c', heq, he⟩ | heq
    · exact .inl ⟨e, c', by rw [heq]; rfl, he⟩
    · right
      rw [stringBody.eq_def]
      simp only [if_neg hquote, if_neg (show ¬ room' = 0 by omega), if_neg hslash, heq]

/-- A higher limit changes no lexeme, unless it is a string that was too
long. -/
theorem lexemeAt_of_limit_le {limit limit' : Nat} (hlimit : limit ≤ limit') (c : Cursor) :
    (∃ e c', lexemeAt limit c = (.error e, c') ∧ e.isTooLong = true) ∨
      lexemeAt limit' c = lexemeAt limit c := by
  unfold lexemeAt
  split
  · exact .inr rfl
  · split
    · exact .inr rfl
    · rename_i first _ _ _ _
      split
      · unfold stringAt
        dsimp only
        rcases stringBody_of_room_le c.position limit limit' first hlimit (c.drop 1).rest
          (c.drop 1).position with ⟨e, c', heq, he⟩ | heq
        · exact .inl ⟨e, c', by rw [heq]; rfl, he⟩
        · rw [heq]
          exact .inr rfl
      · exact .inr rfl

/-- Two scanners at the same place, the second with a higher limit. -/
structure Below (s s' : Scanner) : Prop where
  cursor_eq : s'.cursor = s.cursor
  limit_le : s.limit ≤ s'.limit

/-- A scanner with a higher limit takes the same step, unless a string was
too long for the first one. -/
theorem next_of_below {s s' : Scanner} (h : s.Below s') {result : Except TokenError Token}
    {rest : Scanner} (hnext : s.next = (result, rest)) :
    (∃ e, result = .error e ∧ e.isTooLong = true) ∨
      ∃ rest', s'.next = (result, rest') ∧ rest.Below rest' := by
  unfold next at hnext ⊢
  dsimp only at hnext ⊢
  cases hnext
  rw [h.cursor_eq]
  rcases lexemeAt_of_limit_le h.limit_le (s.cursor.skip Text.isBlank) with ⟨e, c, heq, he⟩ | heq
  · exact .inl ⟨e, by rw [heq]; rfl, he⟩
  · rw [heq]
    exact .inr ⟨_, rfl, rfl, h.limit_le⟩

/-- A scanner with a higher limit gives the same tokens. -/
theorem simulates_of_limit_le :
    TokenSource.Simulates Below (fun e => e.isTooLong = true) where
  next := by
    intro s s' t rest h hnext
    rcases next_of_below h hnext with ⟨e, herror, -⟩ | hsame
    · cases herror
    · exact hsame
  fail := by
    intro s s' e rest h hnext
    rcases next_of_below h hnext with ⟨e', herror, he⟩ | ⟨rest', hnext', -⟩
    · cases herror
      exact .inl he
    · exact .inr ⟨rest', hnext'⟩

end Scanner

/-- A text spells the same program or the same error with a higher limit,
unless one of its strings was too long. -/
theorem Program.ofString_of_limit_le (text : String) {limit limit' : Nat}
    (hlimit : limit ≤ limit') :
    (∃ e, e.isTooLong = true ∧ Program.ofString text limit = .error (.token e)) ∨
      Program.ofString text limit' = Program.ofString text limit :=
  Program.ofSource_agrees Scanner.simulates_of_limit_le ⟨rfl, hlimit⟩

/-! ### Greater call budgets -/

/-- The error that the call budget is used up. -/
def RuntimeError.isCallDepth : RuntimeError → Bool
  | .callDepthExceeded _ _ => true
  | _ => false

/-- What was printed before is the beginning of what was printed now. -/
def Terminal.Begins (t t' : Terminal) : Prop :=
  t.printed.toList <+: t'.printed.toList

/-- What was printed begins itself. -/
theorem Terminal.Begins.refl (t : Terminal) : t.Begins t :=
  List.prefix_refl _

/-- What begins the beginning begins the whole. -/
theorem Terminal.Begins.trans {t t' t'' : Terminal} (h : t.Begins t') (h' : t'.Begins t'') :
    t.Begins t'' :=
  List.IsPrefix.trans h h'

/-- Printing takes nothing back. -/
theorem Terminal.begins_print (t : Terminal) (text : String) : t.Begins (t.print text) := by
  simp [Terminal.Begins, Terminal.print]

/-- Reading takes nothing back. -/
theorem Terminal.begins_read (t : Terminal) : t.Begins t.read.2 := by
  have hprinted : t.read.2.printed = t.printed := by
    unfold Terminal.read
    split
    · rfl
    · rfl
    · dsimp only
      split <;> rfl
  simp only [Terminal.Begins, hprinted, List.prefix_refl]

/-- The terminal that a run leaves behind, if it ends. -/
def Outcome.terminal? {ε α : Type} : Outcome ε α → Option Terminal
  | .ok _ t => some t
  | .error _ t => some t
  | .unfinished => none

namespace Run

/-- The second run takes nothing back that was printed, and each of its
values is related to some value. -/
def Adds : RunRelation := fun _ _ V _ r' => ∀ t,
  (∀ t' ∈ (r' t).terminal?, t.Begins t') ∧ ∀ a' t', r' t = .ok a' t' → ∃ a, V a a'

/-- The first run ends as the second does, unless it uses up its call
budget; then the second prints all that the first has printed. -/
def Within : RunRelation := fun _ _ V r r' => Adds V r r' ∧ ∀ t,
  match r t with
  | .ok a t₁ => ∃ a', r' t = .ok a' t₁ ∧ V a a'
  | .error e t₁ =>
    if e.isCallDepth then ∀ t₂ ∈ (r' t).terminal?, t₁.Begins t₂ else r' t = .error e t₁
  | .unfinished => True

/-- Runs that take nothing back are put together to runs that take nothing
back. -/
theorem adds_congruence : Congruence Eq Adds where
  value := by
    intro α α' V a a' h t
    refine ⟨fun t' ht' => ?_, fun b t' hb => ?_⟩
    · cases ht'
      exact .refl t
    · cases hb
      exact ⟨a, h⟩
  fail := by
    intro α α' V e e' _ t
    refine ⟨fun t' ht' => ?_, fun b t' hb => ?_⟩
    · cases ht'
      exact .refl t
    · cases hb
  stuck := fun _ => ⟨fun _ h => (by cases h), fun _ _ h => (by cases h)⟩
  bind := by
    intro α α' β β' V W r r' next next' hr hnext t
    obtain ⟨hbegins, hvalue⟩ := hr t
    rw [bind_apply]
    cases hrt : r' t with
    | unfinished => exact ⟨fun _ h => (by cases h), fun _ _ h => (by cases h)⟩
    | error e t₁ =>
      rw [hrt] at hbegins
      exact ⟨hbegins, fun _ _ h => (by cases h)⟩
    | ok a' t₁ =>
      -- The second run goes on with `a'`, whatever the first did. The value `a` to which `a'` is
      -- related tells that this is a run that adds.
      rw [hrt] at hbegins
      obtain ⟨a, ha⟩ := hvalue a' t₁ hrt
      obtain ⟨hbegins', hvalue'⟩ := hnext a a' ha t₁
      exact ⟨fun t₂ ht₂ => (hbegins t₁ rfl).trans (hbegins' t₂ ht₂), hvalue'⟩

/-- A greater call budget is used in the same way by all the pieces of a
run. -/
theorem within_congruence : Congruence Eq Within where
  value := fun h => ⟨adds_congruence.value h, fun _ => ⟨_, rfl, h⟩⟩
  fail := by
    intro α α' V e e' he
    refine ⟨adds_congruence.fail he, fun t => ?_⟩
    rw [← he.eq fun _ _ => id]
    show if e.isCallDepth then _ else _
    split
    · intro t₂ ht₂
      cases ht₂
      exact .refl t
    · rfl
  stuck := ⟨adds_congruence.stuck, fun _ => trivial⟩
  bind := by
    intro α α' β β' V W r r' next next' hr hnext
    refine ⟨adds_congruence.bind hr.1 fun a a' ha => (hnext a a' ha).1, fun t => ?_⟩
    have hrt := hr.2 t
    rw [bind_apply, bind_apply]
    cases hr₁ : r t with
    | unfinished => trivial
    | ok a t₁ =>
      rw [hr₁] at hrt
      obtain ⟨a', hr', ha⟩ := hrt
      rw [hr']
      exact (hnext a a' ha).2 t₁
    | error e t₁ =>
      rw [hr₁] at hrt
      dsimp only at hrt ⊢
      split at hrt
      · rename_i he
        rw [if_pos he]
        -- The second run may go on; it prints more, and takes nothing back.
        cases hr' : r' t with
        | unfinished =>
          intro t₂ ht₂
          cases ht₂
        | error e' t' =>
          rw [hr'] at hrt
          exact hrt
        | ok a' t' =>
          rw [hr'] at hrt
          obtain ⟨a, ha⟩ := (hr.1 t).2 a' t' hr'
          intro t₂ ht₂
          exact (hrt t' rfl).trans (((hnext a a' ha).1 t').1 t₂ ht₂)
      · rename_i he
        rw [if_neg he, hrt]

/-- A run that takes nothing back adds, compared with itself. -/
theorem adds_of_begins {α : Type} {r : Run RuntimeError α}
    (h : ∀ t, ∀ t' ∈ (r t).terminal?, t.Begins t') : Adds Eq r r :=
  fun t => ⟨h t, fun a _ _ => ⟨a, rfl⟩⟩

/-- A run that adds is within itself. -/
theorem within_of_adds {α : Type} {r : Run RuntimeError α} (h : Adds Eq r r) : Within Eq r r := by
  refine ⟨h, fun t => ?_⟩
  cases r t with
  | unfinished => trivial
  | ok a t₁ => exact ⟨a, rfl, rfl⟩
  | error e t₁ =>
    dsimp only
    split
    · intro t₂ ht₂
      cases ht₂
      exact .refl t₁
    · rfl

end Run

/-- A builtin function takes nothing back. -/
theorem Builtin.call_adds (b : Builtin) (args : List Value) (p : Position) :
    Run.Adds Eq (b.call args p) (b.call args p) := by
  have hconverted : ∀ target v o,
      Run.Adds Eq (converted target v p o) (converted target v p o) := by
    intro target v o
    cases o with
    | none => exact Run.adds_congruence.fail (.castingError rfl)
    | some w => exact Run.adds_congruence.value rfl
  have hfound : ∀ b r, Run.Adds Eq (found b p r) (found b p r) := by
    intro b r
    cases r with
    | ok v => exact Run.adds_congruence.value rfl
    | error types => exact Run.adds_congruence.fail (.badOperandType rfl)
  unfold Builtin.call
  split
  · refine Run.adds_of_begins fun t t' ht' => ?_
    cases ht'
    exact t.begins_print _
  · refine Run.adds_of_begins fun t t' ht' => ?_
    have hbegins := t.begins_read
    unfold readLine at ht'
    rcases hread : t.read with ⟨_ | line, t₁⟩ <;> rw [hread] at ht' hbegins <;> cases ht' <;>
      exact hbegins
  · exact hconverted _ _ _
  · exact hconverted _ _ _
  · exact hconverted _ _ _
  · exact hfound _ _
  · exact hfound _ _
  · exact Run.adds_congruence.fail (.argumentCountMismatch rfl)

/-- A call takes nothing back. -/
theorem Scope.call_adds (s : Scope) (remaining : Nat) (name : String) (args : List Value)
    (p : Position) : Run.Adds Eq (s.call remaining name args p) (s.call remaining name args p) := by
  have hmirrors : s.Mirrors Eq Run.Adds 0 s := by
    refine Scope.mirrors_of_program_eq Run.adds_congruence rfl (.same _) Builtin.call_adds ?_
    intro remaining name args p f hremaining hname hargs
    rw [Nat.add_zero, Scope.call_of_le_one hname hargs hremaining]
    exact Run.adds_congruence.fail .callDepthExceeded
  exact Scope.call_related Run.adds_congruence hmirrors remaining name args rfl

/-- A program with a greater call budget goes on where the first one may
have had to stop, and is the same up to there. -/
theorem Program.run_within (program : Program) {limits limits' : Limits}
    (hdepth : limits.callDepth ≤ limits'.callDepth) {fuel fuel' : Nat} (hfuel : fuel ≤ fuel') :
    Run.Within Eq (program.run limits fuel) (program.run limits' fuel') := by
  obtain ⟨more, hmore⟩ := Nat.exists_eq_add_of_le hdepth
  refine Scope.run_related_of_program_eq Run.within_congruence (Scope.mirrors_of_program_eq
    Run.within_congruence rfl (.more hfuel fun h => ⟨h.1, fun _ => trivial⟩)
    (fun b args p => Run.within_of_adds (b.call_adds args p)) ?_) rfl hmore
  -- The first run stops here and the second goes on; all that is asked of it is that it takes
  -- nothing back.
  intro remaining name args p f _ _ _
  have hadds := Scope.call_adds ⟨program, limits'.callDepth, fuel'⟩ (remaining + more) name args p
  refine ⟨hadds, fun t => ?_⟩
  show if true then _ else _
  rw [if_pos rfl]
  exact (hadds t).1

/-! ### Whole texts -/

/-- The failure that a limit was met. -/
def Failure.isLimit : Failure → Bool
  | .token e => e.isTooLong
  | .runtime e => e.isCallDepth
  | _ => false

/-- Naming the stage of an error does not end a run that has not ended. -/
theorem Run.asFailure_eq_unfinished_iff {α : Type} (r : Run RuntimeError α) (t : Terminal) :
    r.asFailure t = .unfinished ↔ r t = .unfinished := by
  unfold Run.asFailure
  cases r t <;> simp

/-- Reading and running a text settles. -/
theorem settles_executeText (text : String) (limits : Limits) :
    Settles (executeText text limits) := by
  intro fuel fuel' t hfuel h
  unfold executeText at h ⊢
  cases hprogram : Program.ofString text limits.stringLength with
  | error e => rfl
  | ok program =>
    rw [hprogram] at h
    dsimp only at h ⊢
    rw [ne_eq, Run.asFailure_eq_unfinished_iff] at h
    unfold Run.asFailure
    rw [program.settles_run limits fuel fuel' t hfuel h]

/-- The two runs of a text, with the same rounds for each loop. -/
theorem executeText_of_limits_le (text : String) {limits limits' : Limits}
    (hdepth : limits.callDepth ≤ limits'.callDepth)
    (hlength : limits.stringLength ≤ limits'.stringLength) (fuel : Nat) (start : Terminal) :
    match executeText text limits fuel start with
    | .ok v t => executeText text limits' fuel start = .ok v t
    | .error e t =>
      (e.isLimit = false → executeText text limits' fuel start = .error e t) ∧
      ∀ function limit, e = .runtime (.callDepthExceeded function limit) →
        ∀ t' ∈ (executeText text limits' fuel start).terminal?, t.Begins t'
    | .unfinished => True := by
  unfold executeText
  rcases Program.ofString_of_limit_le text hlength with ⟨e, he, herror⟩ | hsame
  · -- A string was too long: that is a limit, and the run never starts.
    rw [herror]
    refine ⟨fun hlimit => ?_, fun _ _ h => (by cases h)⟩
    have : e.isTooLong = false := hlimit
    rw [he] at this
    cases this
  · rw [hsame]
    cases Program.ofString text limits.stringLength with
    | error e =>
      refine ⟨fun _ => rfl, fun _ _ h => ?_⟩
      cases e <;> cases h
    | ok program =>
      have hwithin := (program.run_within hdepth (Nat.le_refl fuel)).2 start
      unfold Run.asFailure
      dsimp only
      cases hrun : program.run limits fuel start with
      | unfinished => trivial
      | ok v t =>
        rw [hrun] at hwithin
        obtain ⟨v', hrun', rfl⟩ := hwithin
        dsimp only
        rw [hrun']
      | error e t =>
        rw [hrun] at hwithin
        dsimp only at hwithin ⊢
        constructor
        · intro hlimit
          have hdepth' : ¬ e.isCallDepth = true := Bool.eq_false_iff.mp hlimit
          rw [if_neg hdepth'] at hwithin
          rw [hwithin]
        · intro function limit he
          cases he
          have hused : (RuntimeError.callDepthExceeded function limit).isCallDepth = true := rfl
          rw [if_pos hused] at hwithin
          cases hrun' : program.run limits' fuel start <;> rw [hrun'] at hwithin <;> exact hwithin

/-- Raising the limits changes no run that did not meet them: a text that
ends under the lower limits with a value, or with an error that is not
about a limit, ends under the higher ones with the same value or error
and the same terminal, and in no other way. And if it ends under the
lower limits because its call budget is used up, what it has printed is
the beginning of what it prints under the higher ones. -/
theorem ends_of_limits_le (text : String) (start : Terminal) (limits limits' : Limits)
    (hdepth : limits.callDepth ≤ limits'.callDepth)
    (hlength : limits.stringLength ≤ limits'.stringLength) :
    (∀ outcome, Ends (executeText text limits) start outcome →
      (∀ e t, outcome = .error e t → e.isLimit = false) →
      ∀ outcome', Ends (executeText text limits') start outcome' ↔ outcome' = outcome) ∧
    ∀ function limit t, Ends (executeText text limits) start
        (.error (.runtime (.callDepthExceeded function limit)) t) →
      ∀ outcome', Ends (executeText text limits') start outcome' → ∀ t' ∈ outcome'.terminal?,
        t.printed.toList <+: t'.printed.toList := by
  constructor
  · rintro outcome ⟨hne, fuel, hfuel⟩ hlimit outcome'
    have hsame := executeText_of_limits_le text hdepth hlength fuel start
    rw [hfuel] at hsame
    have hends : Ends (executeText text limits') start outcome := by
      refine ⟨hne, fuel, ?_⟩
      cases outcome with
      | unfinished => exact absurd rfl hne
      | ok v t => exact hsame
      | error e t => exact hsame.1 (hlimit e t rfl)
    exact hends.iff_eq (settles_executeText text limits') outcome'
  · rintro function limit t ⟨hne, fuel, hfuel⟩ outcome' ⟨hne', fuel', rfl⟩ t' ht'
    -- Both runs are given the rounds of the longer one.
    have hle : fuel ≤ max fuel fuel' := Nat.le_max_left _ _
    have hle' : fuel' ≤ max fuel fuel' := Nat.le_max_right _ _
    have hboth := executeText_of_limits_le text hdepth hlength (max fuel fuel') start
    rw [settles_executeText text limits _ _ _ hle (hfuel ▸ hne), hfuel,
      settles_executeText text limits' _ _ _ hle' hne'] at hboth
    exact hboth.2 function limit rfl t' ht'

/-- Two texts under two call budgets: `main() returns int { return 7; }`
ends with 7 under both, and `main() returns int { print(1); main(); }`,
which the lower budget stops behind its first line, prints that line
first under the greater one too. -/
theorem ends_of_limits_le_one_two :
    (∀ outcome, Ends (executeText "main() returns int \x7b return 7; \x7d" ⟨2, 0⟩) (.scripted [])
      outcome ↔ outcome = .ok (.int 7) ⟨#[], .lines [], none⟩) ∧
    ∀ t ∈ (executeText "main() returns int \x7b print(1); main(); \x7d" ⟨2, 0⟩ 0
      (.scripted [])).terminal?, ["1"] <+: t.printed.toList := by
  constructor
  · have hrun : executeText "main() returns int \x7b return 7; \x7d" ⟨1, 0⟩ 0 (.scripted []) =
        .ok (.int 7) ⟨#[], .lines [], none⟩ := by with_unfolding_all rfl
    exact (ends_of_limits_le _ _ ⟨1, 0⟩ ⟨2, 0⟩ (by decide) (by decide)).1 _
      ⟨by simp, 0, hrun⟩ (by simp)
  · have hprogram : Program.ofString "main() returns int \x7b print(1); main(); \x7d" 0 =
        .ok (Program.empty.afterOffers [⟨"main", [], .int,
          [.call "print" [.int 1 ⟨1, 28, 28⟩] ⟨1, 22, 22⟩, .call "main" [] ⟨1, 32, 32⟩],
          ⟨1, 20, 20⟩, .start⟩]) := by with_unfolding_all rfl
    have hrun : executeText "main() returns int \x7b print(1); main(); \x7d" ⟨1, 0⟩ 0
        (.scripted []) = .error (.runtime (.callDepthExceeded "main" 1))
          ⟨#["1"], .lines [], none⟩ := by
      have htext : (Value.int 1).text = "1" := by decide
      rw [executeText, hprogram, ← htext]
      rfl
    intro t ht
    refine (ends_of_limits_le _ _ ⟨1, 0⟩ ⟨2, 0⟩ (by decide) (by decide)).2 _ _ _
      ⟨by simp, 0, hrun⟩ _ ⟨?_, 0, rfl⟩ t ht
    intro hunfinished
    rw [hunfinished] at ht
    cases ht

end ScalarScript
