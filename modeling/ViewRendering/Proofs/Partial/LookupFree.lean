import ViewRendering.FileTree
import ViewRendering.Proofs.Partial.Decision
import ViewRendering.Proofs.Partial.Pieces
import ViewRendering.Proofs.Path.Containment

/-!
Directives whose expressions look nothing up. Where all files below the root have only
such directives, an expansion does not depend on the locals, nor on whether compiled
views are kept.
-/
namespace ViewRendering.Partial

/-- No directive of the text has an expression that looks into the locals. -/
def LookupFree (d : Markup.Delimiters) (text : List Char) : Prop :=
  ∀ directive, .directive directive ∈ pieces d text →
    ∀ e, Expression.parse directive.expression = .ok e → ∀ path, .lookup path ∉ e.terms

def LookupFreeBelow (c : Settings) (files : Files) : Prop :=
  ∀ path, Path.Below c.root path → ∀ text, files.read path = .ok text →
    LookupFree c.delimiters text

theorem mapM_evaluate_congr {ts : List Term} {locals locals' : Dict Value}
    (h : ∀ t ∈ ts, t.evaluate locals = t.evaluate locals') :
    ts.mapM (Term.evaluate locals) = ts.mapM (Term.evaluate locals') := by
  induction ts with
  | nil => rfl
  | cons t ts ih =>
    obtain ⟨hfirst, hrest⟩ := List.forall_mem_cons.mp h
    rw [List.mapM_cons, List.mapM_cons, hfirst, ih hrest]

/-- An expression depends on the locals only through its terms. -/
theorem Expression.evaluate_congr {e : Expression} {locals locals' : Dict Value}
    (h : ∀ t ∈ e.terms, t.evaluate locals = t.evaluate locals') :
    e.evaluate locals = e.evaluate locals' := by
  unfold Expression.evaluate
  rw [mapM_evaluate_congr h]

namespace Surroundings

variable {c : Settings} {files : Files}

theorem nameOf_eq_of_lookupFree {expression : List Char}
    (h : ∀ e, Expression.parse expression = .ok e → ∀ path, .lookup path ∉ e.terms)
    (on : Bool) (view : String) (locals locals' : Dict Value) :
    (⟨{ c with cache := on }, files, view, locals⟩ : Surroundings).nameOf expression =
      (⟨c, files, view, locals'⟩ : Surroundings).nameOf expression := by
  unfold nameOf
  split
  · rfl
  · rename_i e he
    have heq : e.evaluate locals = e.evaluate locals' := by
      apply Expression.evaluate_congr
      intro t ht
      cases t with
      | literal s => rfl
      | lookup path => exact absurd ht (h e he path)
    dsimp only
    rw [heq]
    rfl

theorem decide_eq_of_lookupFree {expression : List Char}
    (h : ∀ e, Expression.parse expression = .ok e → ∀ path, .lookup path ∉ e.terms)
    (on : Bool) (view : String) (locals locals' : Dict Value) (chain : List String) :
    (⟨{ c with cache := on }, files, view, locals⟩ : Surroundings).decide chain expression =
      (⟨c, files, view, locals'⟩ : Surroundings).decide chain expression := by
  unfold decide
  rw [nameOf_eq_of_lookupFree h on view locals locals']
  rfl

/-- Where nothing is looked up, locals and the keeping of compiled views make no difference to an
expansion. -/
theorem expand_eq_of_lookupFree (hfree : LookupFreeBelow c files) (on : Bool) (view : String)
    (locals locals' : Dict Value) {text : List Char} (htext : LookupFree c.delimiters text) :
    (⟨{ c with cache := on }, files, view, locals⟩ : Surroundings).expand text =
      (⟨c, files, view, locals'⟩ : Surroundings).expand text := by
  have hagree : Agree ⟨{ c with cache := on }, files, view, locals⟩ ⟨c, files, view, locals'⟩
      (LookupFree c.delimiters) := by
    refine ⟨rfl, rfl, ?_, ?_⟩
    · intro text d hd hpiece chain
      exact decide_eq_of_lookupFree (hd d hpiece) on view locals locals' chain
    · intro chain expression i hi
      have hincluded := (decide_eq_ok_iff _ chain expression i).mp hi
      exact hfree i.path (Path.below_of_viewPath hincluded.placed) i.text hincluded.read
  exact hagree.expand text htext

end Surroundings

end ViewRendering.Partial
