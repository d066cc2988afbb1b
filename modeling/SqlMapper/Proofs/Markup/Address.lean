import Mathlib.Data.List.Basic
import SqlMapper.Markup.Element

/-!
# Addresses of elements

An element of a tree is found by its address, the numbers of the children to go down to from the
root. The order of a document is the order of addresses as words: an element comes before the
elements inside it, and everything inside it comes before what stands behind it.

## Main definitions

* `Element.at?`: the element at an address.
* `Element.addresses`: the addresses in a tree.

## Main statements

* `Element.mem_addresses`: the addresses are those that lead to an element.
* `Element.pairwise_addresses`: they come in the order of words, each once.
* `Element.filterMap_addresses`: the elements at the addresses are those of the tree, in order.
-/

namespace SqlMapper.Markup.Element

/-- The element at an address, which says which child to go to at each step down. -/
def at? (e : Element) : List Nat → Option Element
  | [] => some e
  | i :: rest => e.children[i]?.bind fun child => child.at? rest

mutual

/-- The addresses of an element and of all elements inside it, in the order of their tags. -/
def addresses : Element → List (List Nat)
  | ⟨_, _, _, children⟩ => [] :: addressesFrom 0 children

/-- The addresses of children, the first of which has number `i`, and of all elements inside
them. -/
def addressesFrom (i : Nat) : List Element → List (List Nat)
  | [] => []
  | e :: es => (addresses e).map (i :: ·) ++ addressesFrom (i + 1) es

end

variable {e : Element} {es : List Element} {i : Nat} {p : List Nat}

theorem addresses_eq (e : Element) : e.addresses = [] :: addressesFrom 0 e.children := by
  cases e
  rw [addresses]

theorem at?_cons_eq_some_iff {x : Element} {rest : List Nat} :
    e.at? (i :: rest) = some x ↔ ∃ child, e.children[i]? = some child ∧ child.at? rest = some x :=
  Option.bind_eq_some_iff

theorem mem_addressesFrom :
    p ∈ addressesFrom i es ↔
      ∃ j rest child, p = (i + j) :: rest ∧ es[j]? = some child ∧ rest ∈ child.addresses := by
  induction es generalizing i with
  | nil => simp [addressesFrom]
  | cons e es ih =>
    have hshift : ∀ j, i + 1 + j = i + (j + 1) := by omega
    rw [addressesFrom, List.mem_append, ih, List.mem_map]
    constructor
    · rintro (⟨rest, hrest, rfl⟩ | ⟨j, rest, child, rfl, hchild, hrest⟩)
      · exact ⟨0, rest, e, rfl, rfl, hrest⟩
      · exact ⟨j + 1, rest, child, by rw [hshift], hchild, hrest⟩
    · rintro ⟨j, rest, child, rfl, hchild, hrest⟩
      cases j with
      | zero =>
        obtain rfl : e = child := Option.some.inj hchild
        exact .inl ⟨rest, hrest, rfl⟩
      | succ j => exact .inr ⟨j, rest, child, by rw [hshift], hchild, hrest⟩

theorem mem_addresses : p ∈ e.addresses ↔ ∃ x, e.at? p = some x := by
  -- The address says the way down, so the induction is on it and not on the tree.
  induction p generalizing e with
  | nil => simp [addresses_eq, at?]
  | cons i rest ih =>
    rw [addresses_eq, List.mem_cons, mem_addressesFrom]
    simp only [reduceCtorEq, false_or, Nat.zero_add, List.cons.injEq, at?_cons_eq_some_iff]
    constructor
    · rintro ⟨j, rest', child, ⟨rfl, rfl⟩, hchild, hrest⟩
      obtain ⟨x, hx⟩ := ih.1 hrest
      exact ⟨x, child, hchild, hx⟩
    · rintro ⟨x, child, hchild, hx⟩
      exact ⟨i, rest, child, ⟨rfl, rfl⟩, hchild, ih.2 ⟨x, hx⟩⟩

mutual

theorem pairwise_addresses : ∀ e : Element, e.addresses.Pairwise (· < ·)
  | ⟨_, _, _, children⟩ => by
    rw [addresses, List.pairwise_cons]
    refine ⟨fun p hp => ?_, pairwise_addressesFrom 0 children⟩
    obtain ⟨j, rest, -, rfl, -⟩ := mem_addressesFrom.1 hp
    exact List.nil_lt_cons _ _

theorem pairwise_addressesFrom (i : Nat) :
    ∀ es : List Element, (addressesFrom i es).Pairwise (· < ·)
  | [] => by
    rw [addressesFrom]
    exact List.Pairwise.nil
  | e :: es => by
    rw [addressesFrom, List.pairwise_append]
    refine ⟨?_, pairwise_addressesFrom (i + 1) es, ?_⟩
    · rw [List.pairwise_map]
      exact (pairwise_addresses e).imp fun h => List.cons_lt_cons_iff.2 (.inr ⟨rfl, h⟩)
    · -- What lies in later children has a larger number at the first step.
      intro p hp q hq
      obtain ⟨rest, -, rfl⟩ := List.mem_map.1 hp
      obtain ⟨j, rest', -, rfl, -⟩ := mem_addressesFrom.1 hq
      exact List.cons_lt_cons_iff.2 (.inl (by omega))

end

mutual

theorem filterMap_addresses : ∀ e : Element, e.addresses.filterMap e.at? = e.preorder
  | ⟨tag, attributes, span, children⟩ => by
    have hinside := filterMap_addressesFrom children ⟨tag, attributes, span, children⟩ 0 (by simp)
    rw [addresses, preorder, List.filterMap_cons, at?, hinside]

theorem filterMap_addressesFrom : ∀ (es : List Element) (parent : Element) (i : Nat),
    (∀ j, parent.children[i + j]? = es[j]?) →
      (addressesFrom i es).filterMap parent.at? = preorderAll es
  | [], parent, i, _ => by
    rw [addressesFrom, preorderAll, List.filterMap_nil]
  | e :: es, parent, i, hchildren => by
    have hfirst : (fun p => parent.at? (i :: p)) = e.at? := by
      funext p
      rw [at?, show parent.children[i]? = some e from hchildren 0, Option.bind_some]
    have hrest : ∀ j, parent.children[i + 1 + j]? = es[j]? := by
      intro j
      rw [show i + 1 + j = i + (j + 1) by omega]
      exact hchildren (j + 1)
    rw [addressesFrom, preorderAll, List.filterMap_append, List.filterMap_map,
      filterMap_addressesFrom es parent (i + 1) hrest]
    show (e.addresses.filterMap fun p => parent.at? (i :: p)) ++ _ = _
    rw [hfirst, filterMap_addresses e]

end

end SqlMapper.Markup.Element
