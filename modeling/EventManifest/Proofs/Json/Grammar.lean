import EventManifest.Json.Tree
import EventManifest.Proofs.Json.Spelling

/-!
The grammar of documents, and that the machine reads it. A text of the grammar is a value with
nothing but blanks around it; the grammar bounds neither the depth of a value nor the size of its
numbers, and a key may occur more than once. What the machine makes of other texts is not the
subject here.
-/

namespace EventManifest.Json

/-- What the rules of the grammar are about: a value, the items of an array that is not empty, or the
members of an object that is not empty. -/
inductive Phrase where
  | value (tree : Tree)
  | items (trees : List Tree)
  | members (members : List (Quoted × Tree))

/-- The tokens in which a phrase is written. -/
inductive Written : Phrase → List Token → Prop where
  | null : Written (.value .null) [.null]
  | bool (value : Bool) : Written (.value (.bool value)) [.bool value]
  | numeral (n : Numeral) : Written (.value (.numeral n)) [.numeral n]
  | quoted (units : List CodeUnit) :
      Written (.value (.quoted ⟨units, .closed⟩)) [.quoted ⟨units, .closed⟩]
  | emptyArray : Written (.value (.array [] .closed)) [.openArray, .closeArray]
  | array {trees : List Tree} {tokens : List Token} (hItems : Written (.items trees) tokens) :
      Written (.value (.array trees .closed)) (.openArray :: (tokens ++ [.closeArray]))
  | emptyObject : Written (.value (.object [] false .closed)) [.openObject, .closeObject]
  | object {members : List (Quoted × Tree)} {tokens : List Token}
      (hMembers : Written (.members members) tokens) :
      Written (.value (.object members false .closed))
        (.openObject :: (tokens ++ [.closeObject]))
  | lastItem {tree : Tree} {tokens : List Token} (hValue : Written (.value tree) tokens) :
      Written (.items [tree]) tokens
  | item {tree : Tree} {trees : List Tree} {tokens rest : List Token}
      (hValue : Written (.value tree) tokens) (hRest : Written (.items trees) rest) :
      Written (.items (tree :: trees)) (tokens ++ .comma :: rest)
  | lastMember {units : List CodeUnit} {tree : Tree} {tokens : List Token}
      (hValue : Written (.value tree) tokens) :
      Written (.members [(⟨units, .closed⟩, tree)])
        (.quoted ⟨units, .closed⟩ :: .colon :: tokens)
  | member {units : List CodeUnit} {tree : Tree} {members : List (Quoted × Tree)}
      {tokens rest : List Token} (hValue : Written (.value tree) tokens)
      (hRest : Written (.members members) rest) :
      Written (.members ((⟨units, .closed⟩, tree) :: members))
        (.quoted ⟨units, .closed⟩ :: .colon :: (tokens ++ .comma :: rest))

/-- A text that denotes a tree. -/
def Document (text : List Char) (tree : Tree) : Prop :=
  ∃ tokens, Written (.value tree) tokens ∧ TokensSpelling tokens text

/-- Punctuation may stand anywhere. Only two numerals would run into each other. -/
theorem Separated.cons {token : Token} {tokens : List Token} (hToken : token.isNumeral = false)
    (h : Separated tokens) : Separated (token :: tokens) := by
  refine List.isChain_cons.mpr ⟨fun next _ hNumeral => ?_, h⟩
  rw [hToken] at hNumeral
  cases hNumeral

/-- Two separated lists may be joined by any token that is no numeral. -/
theorem Separated.append {first second : List Token} {token : Token} (hFirst : Separated first)
    (hToken : token.isNumeral = false) (hSecond : Separated second) :
    Separated (first ++ token :: second) := by
  refine List.isChain_append.mpr ⟨hFirst, Separated.cons hToken hSecond, fun last _ next hnext _ => ?_⟩
  cases hnext
  exact hToken

namespace Written

/-- The first token of a value or of items is none that closes. So an array that is not empty can be
told by its first token. -/
theorem exists_head {phrase : Phrase} {tokens : List Token} (h : Written phrase tokens) :
    ∃ first rest, tokens = first :: rest ∧ first ≠ .closeArray := by
  induction h with
  | array | object | null | bool | numeral | quoted | emptyArray | emptyObject | lastMember
  | member => exact ⟨_, _, rfl, Token.noConfusion⟩
  | lastItem _ ih => exact ih
  | item _ _ ih _ =>
      obtain ⟨first, rest, rfl, hFirst⟩ := ih
      exact ⟨first, _, rfl, hFirst⟩

/-- Punctuation stands between any two values, hence between any two numerals. -/
theorem separated {phrase : Phrase} {tokens : List Token} (h : Written phrase tokens) :
    Separated tokens := by
  have hNil : Separated [] := .nil
  induction h with
  | null | bool | numeral | quoted => exact .singleton _
  | emptyArray | emptyObject => exact .cons rfl (.singleton _)
  | array _ ih | object _ ih => exact .cons rfl (ih.append rfl hNil)
  | lastItem _ ih => exact ih
  | item _ _ ih ihRest => exact ih.append rfl ihRest
  | lastMember _ ih => exact .cons rfl (.cons rfl ih)
  | member _ _ ih ihRest => exact .cons rfl (.cons rfl (ih.append rfl ihRest))

end Written

namespace Tree

theorem run_append (state : State) (first second : List Token) :
    run state (first ++ second) = run (run state first) second :=
  List.foldl_append

theorem run_cons (state : State) (token : Token) (tokens : List Token) :
    run state (token :: tokens) = run (step state token) tokens :=
  rfl

/-- What the machine has done when it has read a phrase. -/
def Reads : Phrase → List Token → Prop
  | .value tree, tokens => ∀ stack, run (.value stack) tokens = finish tree stack
  | .items trees, tokens => ∀ items stack,
      run (.value (.array items :: stack)) tokens = .afterElement (trees.reverse ++ items) stack
  | .members new, tokens => ∀ members stack,
      run (.key members stack) tokens = .afterMember (new.reverse ++ members) stack

/-- In the place of the first item, a token that does not close the array begins a value. Only there
may the array be closed at once. -/
theorem step_element {token : Token} (hToken : token ≠ .closeArray) (stack : List Frame) :
    step (.element stack) token = step (.value (.array [] :: stack)) token := by
  cases token with
  | closeArray => exact absurd rfl hToken
  | _ => rfl

/-- By induction over the rules of the grammar: from any stack, the machine reads each phrase to its
end and hands the result to what lies on the stack. -/
theorem reads_of_written {phrase : Phrase} {tokens : List Token} (h : Written phrase tokens) :
    Reads phrase tokens := by
  induction h with
  | null | bool | numeral | quoted | emptyArray | emptyObject =>
      intro stack
      rfl
  | @array trees tokens hItems ih =>
      intro stack
      obtain ⟨first, rest, rfl, hFirst⟩ := hItems.exists_head
      have hRead := ih [] stack
      rw [run_cons, ← step_element hFirst, ← run_cons] at hRead
      have hOpen : step (.value stack) .openArray = .element stack := rfl
      rw [run_cons, hOpen, run_append, hRead, List.append_nil]
      change finish (.array trees.reverse.reverse .closed) stack = _
      rw [List.reverse_reverse]
  | @object members tokens hMembers ih =>
      intro stack
      have hOpen : step (.value stack) .openObject = .key [] stack := rfl
      rw [run_cons, hOpen, run_append, ih, List.append_nil]
      change finish (.object members.reverse.reverse false .closed) stack = _
      rw [List.reverse_reverse]
  | lastItem _ ih =>
      intro items stack
      exact ih (.array items :: stack)
  | @item tree trees tokens rest _ _ ih ihRest =>
      intro items stack
      have hComma : step (finish tree (.array items :: stack)) .comma =
          .value (.array (tree :: items) :: stack) :=
        rfl
      rw [run_append, ih, run_cons, hComma, ihRest, List.reverse_cons, List.append_assoc,
        List.singleton_append]
  | lastMember _ ih =>
      intro members stack
      exact ih _
  | @member units tree new tokens rest _ _ ih ihRest =>
      intro members stack
      have hKey : step (step (.key members stack) (.quoted ⟨units, .closed⟩)) .colon =
          .value (.object members ⟨units, .closed⟩ :: stack) :=
        rfl
      have hComma : step (finish tree (.object members ⟨units, .closed⟩ :: stack)) .comma =
          .key ((⟨units, .closed⟩, tree) :: members) stack :=
        rfl
      rw [run_cons, run_cons, hKey, run_append, ih, run_cons, hComma, ihRest, List.reverse_cons,
        List.append_assoc, List.singleton_append]

end Tree

/-- The machine reads every text of the grammar to its end, as the tree it denotes. What it does
with other texts is not said here. -/
theorem Document.scan_eq {text : List Char} {tree : Tree} (h : Document text tree) :
    Tree.scan text = .complete tree := by
  obtain ⟨tokens, hWritten, hSpelling⟩ := h
  rw [Tree.scan, tokens_spelling hSpelling hWritten.separated]
  exact Tree.reads_of_written hWritten []

end EventManifest.Json
