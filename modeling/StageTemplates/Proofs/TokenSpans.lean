import Mathlib.Data.List.Pairwise
import Mathlib.Data.List.Sort
import StageTemplates.Proofs.TokenCuts
import StageTemplates.Text.Cut

set_option autoImplicit false

/-!
Where the tokens of a text are, in bytes: from an opening mark without a backslash before it to the
first closing brace, one token after another, and no such mark outside of them. There is one list of
tokens like that.
-/
namespace StageTemplates

/-- A token mark stands at the place, and a brace closes it on its line. -/
def ClosedMark (text : String) (place : Nat) : Prop :=
  ∃ before between after, text = before ++ embrace between ++ after ∧
    '\n' ∉ between.toList ∧ before.utf8ByteSize = place

/-- A backslash stands right before the place. -/
def AfterBackslash (text : String) (place : Nat) : Prop :=
  ∃ before after, text = before ++ "\\" ++ after ∧ (before ++ "\\").utf8ByteSize = place

namespace Token

/-- The token begins at a closed mark that no backslash comes before, and ends with the first brace
after it. -/
structure StandsIn (token : Token) (text : String) : Prop where
  closed : ClosedMark text token.start
  free : ¬ AfterBackslash text token.start
  span : ∃ before after, text = before ++ embrace token.inner ++ after ∧
    before.utf8ByteSize = token.start ∧
    (before ++ embrace token.inner).utf8ByteSize = token.stop
  noBrace : '\x7d' ∉ token.inner.toList

/-- The one begins first, and ends before the other begins. -/
def Precedes (token later : Token) : Prop :=
  token.start < later.start ∧ token.stop ≤ later.start

instance : Std.Irrefl Precedes := ⟨fun _ before => Nat.lt_irrefl _ before.1⟩

instance : Std.Antisymm Precedes :=
  ⟨fun _ _ before after => absurd before.1 (Nat.lt_asymm after.1)⟩

end Token

/-- The tokens stand in the text one after another, and every closed mark without a backslash before
it begins a token or lies inside one. -/
structure TokensOf (text : String) (tokens : List Token) : Prop where
  apart : tokens.Pairwise Token.Precedes
  stand : ∀ token ∈ tokens, token.StandsIn text
  complete : ∀ place, ClosedMark text place → ¬ AfterBackslash text place →
    ∃ token ∈ tokens, token.start = place ∨ token.start < place ∧ place < token.stop

section Bytes

theorem eq_of_toList_append {first second : String} {more : List Char}
    (longer : first.toList = second.toList ++ more)
    (size : first.utf8ByteSize = second.utf8ByteSize) : first = second := by
  have split : first = second ++ String.ofList more := by
    rw [← String.toList_inj, longer, String.toList_append, String.toList_ofList]
  rw [split, String.utf8ByteSize_append] at size
  have nothing : String.ofList more = "" := String.utf8ByteSize_eq_zero_iff.mp (by omega)
  rw [split, nothing, String.append_empty]

/-- Beginnings of one text that are equally long in bytes are the same. -/
theorem eq_of_utf8ByteSize_eq {before before' after after' : String}
    (same : before ++ after = before' ++ after')
    (size : before.utf8ByteSize = before'.utf8ByteSize) : before = before' := by
  have lists : before.toList ++ after.toList = before'.toList ++ after'.toList := by
    rw [← String.toList_append, same, String.toList_append]
  rcases List.append_eq_append_iff.mp lists with ⟨more, longer, -⟩ | ⟨more, longer, -⟩
  · exact (eq_of_toList_append longer size.symm).symm
  · exact eq_of_toList_append longer size

theorem afterBackslash_iff {before after : String} :
    AfterBackslash (before ++ after) before.utf8ByteSize ↔ before.toList.getLast? = some '\\' := by
  constructor
  · rintro ⟨first, last, split, size⟩
    rw [eq_of_utf8ByteSize_eq split size.symm, String.toList_append]
    exact List.getLast?_concat
  · intro last
    obtain ⟨first, split⟩ := List.getLast?_eq_some_iff.mp last
    have whole : before = String.ofList first ++ "\\" := by
      rw [← String.toList_inj, split]
      simp
    exact ⟨String.ofList first, after, by rw [← whole], by rw [← whole]⟩

theorem utf8ByteSize_ofList_append (first second : List Char) :
    (String.ofList (first ++ second)).utf8ByteSize =
      (String.ofList first).utf8ByteSize + (String.ofList second).utf8ByteSize := by
  rw [String.ofList_append, String.utf8ByteSize_append]

theorem utf8ByteSize_ofList_pos {text : List Char} (nonempty : text ≠ []) :
    0 < (String.ofList text).utf8ByteSize := by
  refine Nat.pos_of_ne_zero fun none => nonempty ?_
  exact String.ofList_eq_empty_iff.mp (String.utf8ByteSize_eq_zero_iff.mp none)

end Bytes

/-- The tokens of what is left of a text, as `TokensOf` of the whole. -/
structure TokensAfter (before rest : List Char) (tokens : List Token) : Prop where
  behind : ∀ token ∈ tokens, (String.ofList before).utf8ByteSize ≤ token.start
  apart : tokens.Pairwise Token.Precedes
  stand : ∀ token ∈ tokens, token.StandsIn (String.ofList (before ++ rest))
  complete : ∀ skipped left, rest = skipped ++ left → Piece.opened? left ≠ none →
    (before ++ skipped).getLast? ≠ some '\\' →
    ∃ token ∈ tokens, token.start ≤ (String.ofList (before ++ skipped)).utf8ByteSize ∧
      (String.ofList (before ++ skipped)).utf8ByteSize < token.stop

namespace TokensAfter

variable {before rest : List Char} {tokens : List Token}

theorem nil (before : List Char) : TokensAfter before [] [] where
  behind := by simp
  apart := List.Pairwise.nil
  stand := by simp
  complete := by
    intro skipped left split opens
    obtain ⟨-, rfl⟩ := List.append_eq_nil_iff.mp split.symm
    exact absurd rfl opens

/-- A character that opens no token, or is escaped, is passed over. -/
theorem char {c : Char}
    (plain : before.getLast? = some '\\' ∨ Piece.opened? (c :: rest) = none)
    (later : TokensAfter (before ++ [c]) rest tokens) : TokensAfter before (c :: rest) tokens where
  behind := by
    intro token member
    have behind := later.behind token member
    rw [utf8ByteSize_ofList_append] at behind
    omega
  apart := later.apart
  stand := by simpa using later.stand
  complete := by
    intro skipped left split opens free
    cases skipped with
    | nil =>
        rw [List.append_nil] at free
        rw [List.nil_append] at split
        rw [← split] at opens
        exact absurd plain (not_or.mpr ⟨free, opens⟩)
    | cons d skipped =>
        obtain ⟨rfl, after⟩ := List.cons.inj split
        have found := later.complete skipped left after opens
        simp only [List.append_assoc, List.singleton_append] at found
        exact found free

theorem standsIn {inner : List Char} (noBrace : '\x7d' ∉ inner) (noEnd : '\n' ∉ inner)
    (free : before.getLast? ≠ some '\\') (rest : List Char) :
    Token.StandsIn
      ⟨(String.ofList before).utf8ByteSize,
        (String.ofList (before ++ (Piece.token inner).text)).utf8ByteSize, String.ofList inner⟩
      (String.ofList (before ++ ((Piece.token inner).text ++ rest))) := by
  have split : String.ofList (before ++ ((Piece.token inner).text ++ rest)) =
      String.ofList before ++ embrace (String.ofList inner) ++ String.ofList rest := by
    rw [String.ofList_append, String.ofList_append, Piece.ofList_text_token, String.append_assoc]
  refine ⟨⟨String.ofList before, String.ofList inner, String.ofList rest, split, ?_, rfl⟩, ?_,
    ⟨String.ofList before, String.ofList rest, split, rfl, ?_⟩, ?_⟩
  · rwa [String.toList_ofList]
  · rw [split, String.append_assoc, afterBackslash_iff, String.toList_ofList]
    exact free
  · rw [String.ofList_append, Piece.ofList_text_token]
  · rwa [String.toList_ofList]

theorem token {inner : List Char} (noBrace : '\x7d' ∉ inner) (noEnd : '\n' ∉ inner)
    (free : before.getLast? ≠ some '\\')
    (later : TokensAfter (before ++ (Piece.token inner).text) rest tokens) :
    TokensAfter before ((Piece.token inner).text ++ rest)
      (⟨(String.ofList before).utf8ByteSize,
        (String.ofList (before ++ (Piece.token inner).text)).utf8ByteSize,
        String.ofList inner⟩ :: tokens) where
  behind := by
    rw [List.forall_mem_cons]
    refine ⟨Nat.le_refl _, fun token member => ?_⟩
    have behind := later.behind token member
    rw [utf8ByteSize_ofList_append] at behind
    omega
  apart := by
    refine List.Pairwise.cons (fun token member => ?_) later.apart
    have behind := later.behind token member
    have nonempty : (Piece.token inner).text ≠ [] := List.cons_ne_nil _ _
    have wide := utf8ByteSize_ofList_pos nonempty
    refine ⟨?_, behind⟩
    rw [utf8ByteSize_ofList_append] at behind
    exact Nat.lt_of_lt_of_le (Nat.lt_add_of_pos_right wide) behind
  stand := by
    rw [List.forall_mem_cons]
    refine ⟨standsIn noBrace noEnd free rest, ?_⟩
    simpa using later.stand
  complete := by
    intro skipped left split opens unescaped
    rcases List.append_eq_append_iff.mp split with ⟨past, rfl, after⟩ | ⟨tail, whole, rfl⟩
    · -- The mark comes after the token.
      rw [← List.append_assoc] at unescaped ⊢
      obtain ⟨token, member, inside⟩ := later.complete past left after opens unescaped
      exact ⟨token, List.mem_cons_of_mem _ member, inside⟩
    · cases tail with
      | nil =>
          rw [List.append_nil] at whole
          have found := later.complete [] rest rfl opens
          rw [List.append_nil, whole] at found
          obtain ⟨token, member, inside⟩ := found unescaped
          exact ⟨token, List.mem_cons_of_mem _ member, inside⟩
      | cons c tail =>
          -- The mark lies within the token.
          have wide := utf8ByteSize_ofList_pos (List.cons_ne_nil c tail)
          refine ⟨_, List.mem_cons_self, ?_, ?_⟩
          · dsimp only
            rw [utf8ByteSize_ofList_append]
            exact Nat.le_add_right _ _
          · dsimp only
            rw [whole, ← List.append_assoc, utf8ByteSize_ofList_append _ (c :: tail)]
            exact Nat.lt_add_of_pos_right wide

end TokensAfter

/-- Cutting a text up from some place on gives the tokens from there on. -/
theorem tokensAfter_cut (before rest : List Char) {escaped : Bool}
    (mark : escaped = decide (before.getLast? = some '\\')) :
    TokensAfter before rest
      (Token.ofPieces (String.ofList before).utf8ByteSize (Piece.cut 0 escaped rest)) := by
  induction escaped, rest using Piece.cut_induction generalizing before with
  | nil escaped => exact TokensAfter.nil before
  | char escaped c rest plain ih =>
      have later := ih (before ++ [c]) (by simp)
      rw [utf8ByteSize_ofList_append] at later
      rw [Piece.cut_char plain]
      refine TokensAfter.char ?_ later
      rwa [mark, decide_eq_true_eq] at plain
  | token inner rest noBrace noEnd ih =>
      have brace : (before ++ (Piece.token inner).text).getLast? = some '\x7d' := by
        rw [Piece.text, ← List.cons_append, ← List.cons_append, ← List.append_assoc,
          List.getLast?_concat]
      have later := ih (before ++ (Piece.token inner).text) (by rw [brace]; decide)
      have free : before.getLast? ≠ some '\\' := by simpa using mark
      have found := TokensAfter.token noBrace noEnd free later
      rw [utf8ByteSize_ofList_append] at found
      rw [Piece.cut_token noBrace noEnd]
      exact found

theorem tokensOf_ofText (text : String) : TokensOf text (Token.ofText text) := by
  have found := tokensAfter_cut [] text.toList rfl
  refine ⟨found.apart, ?_, ?_⟩
  · have stand := found.stand
    rw [List.nil_append, String.ofList_toList] at stand
    exact stand
  · rintro place ⟨before, between, after, rfl, noEnd, rfl⟩ free
    rw [String.append_assoc, afterBackslash_iff] at free
    have opens : Piece.opened? (embrace between ++ after).toList ≠ none := by
      have opens := Piece.opened?_ne_none noEnd after.toList
      rwa [← String.toList_ofList (l := (Piece.token between.toList).text),
        Piece.ofList_text_token, String.ofList_toList, ← String.toList_append] at opens
    obtain ⟨token, member, start, stop⟩ :=
      found.complete before.toList (embrace between ++ after).toList
        (by rw [← String.toList_append, String.append_assoc]) opens free
    rw [List.nil_append, String.ofList_toList] at start stop
    refine ⟨token, member, ?_⟩
    rcases Nat.eq_or_lt_of_le start with same | before
    · exact Or.inl same
    · exact Or.inr ⟨before, stop⟩

/-- Where a token begins says what it is. -/
theorem Token.StandsIn.unique {text : String} {first second : Token} (one : first.StandsIn text)
    (two : second.StandsIn text) (start : first.start = second.start) : first = second := by
  obtain ⟨before, after, split, size, stop⟩ := one.span
  obtain ⟨before', after', split', size', stop'⟩ := two.span
  rw [split, String.append_assoc, String.append_assoc] at split'
  cases eq_of_utf8ByteSize_eq split' (by rw [size, size', start])
  have rest := (String.append_right_inj before).mp split'
  have inner : first.inner = second.inner := by
    have lists := congrArg String.toList rest
    simp only [embrace, String.toList_append, List.append_assoc] at lists
    have cut := congrArg (Text.cutFirst '\x7d') (List.append_cancel_left lists)
    change Text.cutFirst '\x7d' (first.inner.toList ++ '\x7d' :: after.toList) =
      Text.cutFirst '\x7d' (second.inner.toList ++ '\x7d' :: after'.toList) at cut
    rw [Text.cutFirst_append one.noBrace, Text.cutFirst_append two.noBrace] at cut
    exact String.toList_inj.mp (Prod.mk.inj (Option.some.inj cut)).1
  obtain ⟨start₁, stop₁, inner₁⟩ := first
  obtain ⟨start₂, stop₂, inner₂⟩ := second
  cases inner
  cases start
  cases stop.symm.trans stop'
  rfl

namespace TokensOf

variable {text : String} {first second : List Token}

/-- Each token of one list begins inside a token of the other list, and not behind its beginning:
that token would be in the first list too, and not apart from the one there. -/
theorem mem (one : TokensOf text first) (two : TokensOf text second) {token : Token}
    (member : token ∈ first) : token ∈ second := by
  induction start : token.start using Nat.strongRecOn generalizing first second token with
  | ind start ih =>
      have stands := one.stand token member
      obtain ⟨other, there, same | ⟨earlier, inside⟩⟩ :=
        two.complete token.start stands.closed stands.free
      · rwa [← (two.stand other there).unique stands same]
      · have here : other ∈ first := ih other.start (start ▸ earlier) two one there rfl
        have distinct : other ≠ token := fun same => Nat.lt_irrefl _ (same ▸ earlier)
        have symmetric : Std.Symm fun a b : Token => a.Precedes b ∨ b.Precedes a :=
          ⟨fun _ _ => Or.symm⟩
        have apart : first.Pairwise fun a b => a.Precedes b ∨ b.Precedes a := one.apart.imp Or.inl
        rcases apart.forall here member distinct with before | behind
        · exact absurd inside (Nat.not_lt.mpr before.2)
        · exact absurd earlier (Nat.lt_asymm behind.1)

theorem unique (one : TokensOf text first) (two : TokensOf text second) : first = second :=
  one.apart.eq_of_mem_iff two.apart fun _ => ⟨one.mem two, two.mem one⟩

end TokensOf

/-- The tokens of a text are the list of tokens that stand in it one after another and leave out no
closed mark without a backslash before it. -/
theorem tokensOf_iff (text : String) (tokens : List Token) :
    TokensOf text tokens ↔ tokens = Token.ofText text := by
  constructor
  · intro given
    exact given.unique (tokensOf_ofText text)
  · rintro rfl
    exact tokensOf_ofText text

/-- The escaped mark takes no token with it, and the one that is a token takes an escaped mark. -/
example : Token.ofText "\\$\x7ba $\x7bb \\$\x7bc\x7d" = [⟨5, 14, "b \\$\x7bc"⟩] := by cbv

end StageTemplates
