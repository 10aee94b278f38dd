import Crashlog.CrashLog

/-!
# The order of the regions

In document order the regions in the boxes of a region follow it in the order
of the boxes, before the next region. Building a Crash Log pushes them to the
front of the queue one after the other, so the last box comes first.
-/

namespace Crashlog

/-- Draining a queue of regions in document order. -/
def documentExpansion : Expansion Region where
  children := boxedRegions
  weight := boxExpansion.weight
  lighter region := by
    have lighter := boxExpansion.lighter region
    change (((boxedRegions region).reverse).map boxExpansion.weight).sum < _ at lighter
    rwa [List.map_reverse, List.sum_reverse] at lighter

/-- The regions in document order, each followed by what its boxes hold. -/
def documentOrder (regions : List Region) : List Region := documentExpansion.run regions

/-- A region, then the regions in its boxes with all they hold, then the next region. -/
theorem document_order_cons (region : Region) (rest : List Region) :
    documentOrder (region :: rest) = region :: (documentOrder (boxedRegions region) ++ documentOrder rest) := by
  rw [documentOrder, Expansion.run_cons, Expansion.run_append]
  rfl

theorem document_order_eq_iff (regions : List Region) :
    documentOrder regions = boxExpansion.run regions ↔
      ∀ region ∈ documentOrder regions, boxedRegions region = (boxedRegions region).reverse :=
  Expansion.run_eq_mirrored_iff (fun _ => rfl) regions

namespace CrashLog

/-- The regions of a Crash Log are in document order exactly when the boxes of
every region read the same backwards, as a single box does. -/
theorem listed_in_document_order_iff (regions : List Region) :
    (∀ crashlog, fromRegions regions = .ok crashlog → crashlog.regions = documentOrder regions) ↔
      ∀ region ∈ documentOrder regions, boxedRegions region = (boxedRegions region).reverse := by
  rw [← document_order_eq_iff, from_regions_eq]
  split_ifs with empty
  · subst empty
    simp [documentOrder]
  · simp only [Except.ok.injEq, forall_eq']
    exact eq_comm

end CrashLog

end Crashlog
