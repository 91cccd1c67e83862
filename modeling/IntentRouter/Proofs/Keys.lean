import Mathlib.Data.List.Nodup
import IntentRouter.Proofs.Isolation

/-!
# The keys of intents

An intent is registered under its id together with its owner. No run ever has two intents under
one key: the catalog refuses the second, what it loses does not bring one back, and nothing that
is asked of the router itself changes the catalog. So whatever is found first under a key is all
that is registered under it.
-/

namespace IntentRouter

/-- What an intent is registered under: its id and its owner. -/
def Intent.key (i : Intent) : String × String := (i.intentId, i.owner)

theorem Intent.hasKey_iff {i : Intent} {intentId owner : String} :
    i.hasKey intentId owner = true ↔ i.key = (intentId, owner) := by
  simp only [hasKey, key, Bool.and_eq_true, decide_eq_true_eq, Prod.mk.injEq]

/-- A search that can only find what has a certain key finds all there is, where no key occurs
twice. -/
theorem toList_find?_eq_filter {α κ : Type} {key : α → κ} {k : κ} {select : α → Bool}
    {xs : List α} (once : (xs.map key).Nodup) (selects : ∀ x, select x = true → key x = k) :
    (xs.find? select).toList = xs.filter select := by
  induction xs with
  | nil => rfl
  | cons x rest ih =>
    obtain ⟨hx, hrest⟩ := List.nodup_cons.mp once
    rw [List.find?_cons, List.filter_cons]
    by_cases hsel : select x = true
    · -- Anything else that is selected would have the key of the first.
      have hnone : rest.filter select = [] := by
        rw [List.filter_eq_nil_iff]
        intro y hy hysel
        have hsame : key y = key x := (selects y hysel).trans (selects x hsel).symm
        exact hx (hsame ▸ List.mem_map_of_mem hy)
      simp only [hsel, if_true, hnone, Option.toList_some]
    · simp only [hsel, Bool.false_eq_true, if_false, ih hrest]

namespace Catalog

variable {c : Catalog} {i : Intent}

/-- No two intents are registered under one key. -/
def Keyed (c : Catalog) : Prop := (c.intents.map Intent.key).Nodup

theorem keyed_empty : Catalog.empty.Keyed := List.nodup_nil

/-- There is a reason against registering an intent under a key that is taken. -/
theorem key_notMem_of_fault? (h : c.fault? i = none) : i.key ∉ c.intents.map Intent.key := by
  intro hmem
  obtain ⟨j, hj, hkey⟩ := List.mem_map.mp hmem
  have htaken : (c.intents.any fun j => j.hasKey i.intentId i.owner) = true :=
    List.any_eq_true.mpr ⟨j, hj, Intent.hasKey_iff.mpr hkey⟩
  unfold fault? at h
  by_cases hempty : i.intentId = ""
  · rw [if_pos hempty] at h
    cases h
  rw [if_neg hempty] at h
  by_cases hunknown : ¬ c.isKnown i.owner = true
  · rw [if_pos hunknown] at h
    cases h
  · rw [if_neg hunknown, if_pos htaken] at h
    cases h

theorem Keyed.add (h : c.Keyed) (i : Intent) : (c.add i).state.Keyed := by
  unfold Catalog.add
  cases hfault : c.fault? i with
  | some reason => exact h
  | none =>
    have hnew : (c.intents.map Intent.key).Disjoint [i.key] :=
      List.disjoint_singleton.mpr (key_notMem_of_fault? hfault)
    have hboth := List.Nodup.append h (List.nodup_singleton i.key) hnew
    rwa [← List.map_singleton, ← List.map_append] at hboth

theorem Keyed.remove (h : c.Keyed) (i : Intent) : (c.remove i).state.Keyed := by
  unfold Catalog.remove
  cases c.intents.find? fun j => j.hasKey i.intentId i.owner with
  | none => exact h
  | some removed => exact h.sublist (List.eraseP_sublist.map Intent.key)

/-- Whatever is asked of the catalog, no two intents get under one key. -/
theorem Keyed.perform (h : c.Keyed) (call : CatalogCall) : (c.perform call).state.Keyed := by
  cases call with
  | add i => exact h.add i
  | remove i => exact h.remove i
  | addApplication application =>
    simp only [Catalog.perform, addApplication]
    split <;> exact h
  | addHandler application handler =>
    simp only [Catalog.perform, addHandler]
    split <;> exact h
  | removeHandler application handler =>
    simp only [Catalog.perform, removeHandler]
    split <;> exact h
  | _ => exact h

/-- What is found under an id and an owner is all that is registered there and accepts the
values. -/
theorem Keyed.toList_find? (h : c.Keyed) (intentId owner : String) (parameters : Json.Parameters) :
    (c.find? intentId owner parameters).toList =
      c.intents.filter fun i => i.hasKey intentId owner && i.accepts parameters := by
  refine toList_find?_eq_filter (k := (intentId, owner)) h fun i hi => ?_
  exact Intent.hasKey_iff.mp (Bool.and_eq_true_iff.mp hi).1

end Catalog

/-- No run has two intents under one key. -/
theorem Run.keyed (run : Run) (n : Nat) : (run.router n).catalog.Keyed := by
  induction n with
  | zero =>
    rw [router_zero, start_eq_fresh]
    exact Catalog.keyed_empty
  | succ n ih =>
    cases hm : run.moves[n]? with
    | none => rwa [router_succ_of_none hm]
    | some m =>
      rw [router_succ hm]
      obtain ⟨around, ask⟩ := m
      cases ask with
      | catalog call => exact ih.perform call
      | router call =>
        have hsame := Router.catalog_perform (run.router n) around call
        exact hsame ▸ ih

end IntentRouter
