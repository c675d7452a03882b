import DocAnnotations.Proofs.Node.Derivation

/-!
# How deeply a text nests

The grammar has texts of any depth, and the parser gives up at a limit.

`Grammar.NestsWithin` is the condition on a text that keeps the parser from giving up: no derivation
from its tokens has more levels open at once.  It is about the text, not about a tree that was read
from it, so it can be asked of a text before it is read.

**`inductive_depth_le`**: every level takes a token to open.  So a text nests no more deeply than it
has tokens (`nestsWithin_of_length_le`), and short texts never meet the limit.
-/

namespace DocAnnotations.Grammar

/-- However the tokens of a text are derived, no more than so many levels are open at once. -/
def NestsWithin (text : String) (limit : Nat) : Prop :=
  ∀ tokens tree depth, tokenize text = .ok tokens → IsRoot tokens tree depth → depth ≤ limit

/-- If no item of a list is deeper than it has tokens, neither is the list. -/
lemma depth_le_of_separated {α : Type} {Item : List Token → α → Nat → Prop}
    (each : ∀ {ts x depth}, Item ts x depth → depth ≤ ts.length) {ts : List Token} {xs : List α}
    {depth : Nat} (items : Separated Item ts xs depth) : depth ≤ ts.length := by
  induction items with
  | last item => exact each item
  | more item mark items ih =>
      have := each item
      simp
      omega

/-- **Each level takes a token of its own to open.** -/
theorem inductive_depth_le : Inductive (fun ts _ depth => depth ≤ ts.length)
    (fun ts _ depth => depth ≤ ts.length) fun ts _ depth => depth ≤ ts.length where
  literal _ := Nat.zero_le _
  emptyArray _ _ := by simp
  array _ items _ := by
    have := depth_le_of_separated And.right items
    simp
    omega
  nested _ _ inner := Nat.succ_le_succ inner
  pair _ _ _ value := by
    simp
    omega
  bare _ := Nat.zero_le _
  empty _ _ _ := by simp
  pairs _ _ items _ := by
    have := depth_le_of_separated And.right items
    simp
    omega
  lone _ _ _ value _ := by
    simp
    omega

/-- A text cannot nest more deeply than it has tokens. -/
lemma nestsWithin_of_length_le {text : String} {tokens : List Token} {limit : Nat}
    (cut : tokenize text = .ok tokens) (few : tokens.length ≤ limit) : NestsWithin text limit := by
  intro tokens' tree depth cut' derived
  cases Except.ok.inj (cut.symm.trans cut')
  refine Nat.le_trans ?_ few
  cases derived with
  | plain inner _ =>
      have := inductive_depth_le.of_annotated inner
      simp
      omega
  | marked _ inner _ =>
      have := inductive_depth_le.of_annotated inner
      simp
      omega

end DocAnnotations.Grammar
