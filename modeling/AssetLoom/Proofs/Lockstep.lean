import AssetLoom.Proofs.Preference
import Mathlib.Logic.Relation

/-!
# A search finds the preferred match

A program can also be run with a way back: a fork tries its first branch to the end before the
second one. `Gives` says what a node gives in this way. A search follows all threads at once and
goes to each node only once at a position; it finds the same match (`searchFrom_eq`).

What makes the threads that it drops superfluous is an order of the nodes at a position: a node
that succeeds owes it to another one further on, and this is the case for the first thread of the
stack that succeeds with regard to all nodes that have been visited (`Awaited`). A thread that
comes to one of them again would be further on than itself (`Gives.no_cycle`).
-/

namespace AssetLoom.Pattern

/-! ## With a way back -/

/-- From a spot the node `i` gives the slots of its preferred way to the end, if there is one. -/
inductive Gives (code : Program) : Spot → Nat → Slots → Option Slots → Prop
  | missing {spot i slots} (h : code[i]? = none) : Gives code spot i slots none
  | accept {spot i slots} (h : code[i]? = some .accept) : Gives code spot i slots (some slots)
  | read {before index c rest i set next slots result} (h : code[i]? = some (.read set next))
      (hIn : set.contains c = true)
      (hNext : Gives code ⟨some c, index + 1, rest⟩ next slots result) :
      Gives code ⟨before, index, c :: rest⟩ i slots result
  | unread {spot i set next slots} (h : code[i]? = some (.read set next))
      (hOut : ∀ c ∈ spot.rest.head?, set.contains c = false) : Gives code spot i slots none
  | test {spot i condition next slots result} (h : code[i]? = some (.test condition next))
      (hHolds : condition.holds spot.before spot.rest.head? = true)
      (hNext : Gives code spot next slots result) : Gives code spot i slots result
  | untested {spot i condition next slots} (h : code[i]? = some (.test condition next))
      (hHolds : condition.holds spot.before spot.rest.head? = false) : Gives code spot i slots none
  | note {spot i slot next slots result} (h : code[i]? = some (.note slot next))
      (hNext : Gives code spot next (slots.setIfInBounds slot (some spot.index)) result) :
      Gives code spot i slots result
  | fork {spot i first second slots a b} (h : code[i]? = some (.fork first second))
      (hFirst : Gives code spot first slots a) (hSecond : Gives code spot second slots b) :
      Gives code spot i slots (a.or b)

/-- The node `i` goes on to the node `j` without reading a character. -/
inductive Leads (code : Program) (spot : Spot) : Nat → Nat → Prop
  | test {i condition next} (h : code[i]? = some (.test condition next))
      (hHolds : condition.holds spot.before spot.rest.head? = true) : Leads code spot i next
  | note {i slot next} (h : code[i]? = some (.note slot next)) : Leads code spot i next
  | first {i first second} (h : code[i]? = some (.fork first second)) : Leads code spot i first
  | second {i first second} (h : code[i]? = some (.fork first second)) : Leads code spot i second

section Gives

variable {code : Program} {spot : Spot} {i j next slot first second : Nat}
  {slots slots' : Slots} {r r' : Option Slots}

namespace Gives

theorem of_none (h : code[i]? = none) (hGives : Gives code spot i slots r) : r = none := by
  cases hGives <;> simp_all

theorem of_accept (h : code[i]? = some .accept) (hGives : Gives code spot i slots r) :
    r = some slots := by
  cases hGives <;> simp_all

theorem of_test {condition : Look} (h : code[i]? = some (.test condition next))
    (hGives : Gives code spot i slots r) :
    if condition.holds spot.before spot.rest.head? then Gives code spot next slots r
    else r = none := by
  cases hGives <;> simp_all

theorem of_note (h : code[i]? = some (.note slot next)) (hGives : Gives code spot i slots r) :
    Gives code spot next (slots.setIfInBounds slot (some spot.index)) r := by
  cases hGives <;> simp_all

theorem of_fork (h : code[i]? = some (.fork first second)) (hGives : Gives code spot i slots r) :
    ∃ a b, Gives code spot first slots a ∧ Gives code spot second slots b ∧ r = a.or b := by
  cases hGives with
  | fork h' hFirst hSecond =>
    obtain ⟨rfl, rfl⟩ : first = _ ∧ second = _ := by simpa [h] using h'
    exact ⟨_, _, hFirst, hSecond, rfl⟩
  | _ => simp_all

/-- At the end of the text nothing is read. -/
theorem of_read_nil {set : CharSet} {before : Option Char} {index : Nat}
    (h : code[i]? = some (.read set next)) (hGives : Gives code ⟨before, index, []⟩ i slots r) :
    r = none := by
  cases hGives <;> simp_all

theorem of_read_cons {set : CharSet} {before : Option Char} {index : Nat} {c : Char} {rest : Text}
    (h : code[i]? = some (.read set next))
    (hGives : Gives code ⟨before, index, c :: rest⟩ i slots r) :
    if set.contains c then Gives code ⟨some c, index + 1, rest⟩ next slots r else r = none := by
  cases hGives <;> simp_all

/-- What has been noted has no influence on whether there is a way to the end. -/
theorem isSome_eq (h : Gives code spot i slots r) (h' : Gives code spot i slots' r') :
    r.isSome = r'.isSome := by
  induction h generalizing slots' r' with
  | missing h => rw [h'.of_none h]
  | accept h => rw [h'.of_accept h]; rfl
  | read h hIn _ ih =>
    have hNext := h'.of_read_cons h
    rw [if_pos hIn] at hNext
    exact ih hNext
  | @unread spot i set next slots h hOut =>
    obtain ⟨before, index, rest⟩ := spot
    cases rest with
    | nil => rw [h'.of_read_nil h]
    | cons c rest =>
      have hNext := h'.of_read_cons h
      rw [if_neg (by simp [hOut c rfl])] at hNext
      rw [hNext]
  | test h hHolds _ ih =>
    have hNext := h'.of_test h
    rw [if_pos hHolds] at hNext
    exact ih hNext
  | untested h hHolds =>
    have hNext := h'.of_test h
    rw [if_neg (by simp [hHolds])] at hNext
    rw [hNext]
  | note h _ ih => exact ih (h'.of_note h)
  | fork h _ _ ihFirst ihSecond =>
    obtain ⟨a, b, hFirst, hSecond, rfl⟩ := h'.of_fork h
    rw [Option.isSome_or, Option.isSome_or, ihFirst hFirst, ihSecond hSecond]

/-- A node that gives anything, be it nothing, does not lead back to itself. -/
theorem no_cycle (h : Gives code spot i slots r) : ¬ Relation.TransGen (Leads code spot) i i := by
  induction h with
  | missing h | accept h | read h | unread h | untested h =>
    intro hCycle
    obtain ⟨j, hStep, -⟩ := Relation.TransGen.head'_iff.mp hCycle
    cases hStep <;> simp_all
  | test h _ _ ih | note h _ ih =>
    intro hCycle
    obtain ⟨j, hStep, hBack⟩ := Relation.TransGen.head'_iff.mp hCycle
    have hNext := Relation.TransGen.tail' hBack hStep
    cases hStep <;> simp_all
  | fork h _ _ ihFirst ihSecond =>
    intro hCycle
    obtain ⟨j, hStep, hBack⟩ := Relation.TransGen.head'_iff.mp hCycle
    have hNext := Relation.TransGen.tail' hBack hStep
    cases hStep <;> simp_all

end Gives

/-! ## Threads -/

/-- From a spot the first of some threads that comes to the end gives `result`. -/
inductive Settles (code : Program) (spot : Spot) : List Thread → Option Slots → Prop
  | nil : Settles code spot [] none
  | cons {thread threads a b} (h : Gives code spot thread.node thread.slots a)
      (hRest : Settles code spot threads b) : Settles code spot (thread :: threads) (a.or b)

/-- The node has a way to the end. -/
def Succeeds (code : Program) (spot : Spot) (i : Nat) : Prop :=
  ∃ slots result, Gives code spot i slots (some result)

/-- The node has no way to the end. -/
def Fails (code : Program) (spot : Spot) (i : Nat) : Prop :=
  ∃ slots, Gives code spot i slots none

theorem Fails.not_succeeds (h : Fails code spot i) : ¬ Succeeds code spot i := by
  obtain ⟨slots, hNone⟩ := h
  rintro ⟨slots', result, hSome⟩
  cases hNone.isSome_eq hSome

variable {threads stack : List Thread} {thread : Thread}

namespace Settles

theorem append {others : List Thread} (h : Settles code spot threads r)
    (hOthers : Settles code spot others r') : Settles code spot (threads ++ others) (r.or r') := by
  induction h with
  | nil => simpa using hOthers
  | cons hThread _ ih =>
    rw [List.cons_append, Option.or_assoc]
    exact .cons hThread ih

theorem single (h : Gives code spot thread.node thread.slots r) : Settles code spot [thread] r := by
  simpa using Settles.cons h .nil

theorem of_cons (h : Settles code spot (thread :: threads) r) : ∃ a b,
    Gives code spot thread.node thread.slots a ∧ Settles code spot threads b ∧ r = a.or b := by
  cases h with
  | cons hThread hRest => exact ⟨_, _, hThread, hRest, rfl⟩

theorem of_append {others : List Thread} (h : Settles code spot (threads ++ others) r) :
    ∃ a b, Settles code spot threads a ∧ Settles code spot others b ∧ r = a.or b := by
  induction threads generalizing r with
  | nil => exact ⟨none, r, .nil, h, by simp⟩
  | cons thread threads ih =>
    cases h with
    | cons hThread hRest =>
      obtain ⟨a, b, hThreads, hOthers, rfl⟩ := ih hRest
      exact ⟨_, b, .cons hThread hThreads, hOthers, (Option.or_assoc ..).symm⟩

theorem fails (h : Settles code spot threads none) :
    ∀ thread ∈ threads, Fails code spot thread.node := by
  generalize hNone : (none : Option Slots) = r at h
  induction h with
  | nil => simp
  | cons hThread _ ih =>
    obtain ⟨rfl, rfl⟩ := Option.or_eq_none_iff.mp hNone.symm
    exact List.forall_mem_cons.mpr ⟨⟨_, hThread⟩, ih rfl⟩

theorem isSome (h : Settles code spot threads r) (hThread : thread ∈ threads)
    (hSucceeds : Succeeds code spot thread.node) : r.isSome = true := by
  cases r with
  | none => exact absurd hSucceeds (h.fails thread hThread).not_succeeds
  | some result => rfl

end Settles

/-- The first thread of a stack that succeeds is at a node that `i` leads to. -/
def Awaited (code : Program) (spot : Spot) (stack : List Thread) (i : Nat) : Prop :=
  ∃ failing thread later, stack = failing ++ thread :: later ∧
    (∀ other ∈ failing, Fails code spot other.node) ∧ Succeeds code spot thread.node ∧
    Relation.TransGen (Leads code spot) i thread.node

/-- A thread that succeeds is the first one that does. -/
theorem Awaited.of_succeeds (h : Awaited code spot (thread :: stack) i)
    (hSucceeds : Succeeds code spot thread.node) :
    Relation.TransGen (Leads code spot) i thread.node := by
  obtain ⟨failing, first, later, hSplit, hFailing, -, hLeads⟩ := h
  cases failing with
  | nil =>
    obtain ⟨rfl, -⟩ := List.cons.inj hSplit
    exact hLeads
  | cons other failing =>
    obtain ⟨rfl, -⟩ := List.cons.inj hSplit
    exact absurd hSucceeds (hFailing _ List.mem_cons_self).not_succeeds

/-- A thread that fails is not the first one that succeeds. -/
theorem Awaited.of_fails (h : Awaited code spot (thread :: stack) i)
    (hFails : Fails code spot thread.node) : Awaited code spot stack i := by
  obtain ⟨failing, first, later, hSplit, hFailing, hSucceeds, hLeads⟩ := h
  cases failing with
  | nil =>
    obtain ⟨rfl, -⟩ := List.cons.inj hSplit
    exact absurd hSucceeds hFails.not_succeeds
  | cons other failing =>
    obtain ⟨-, rfl⟩ := List.cons.inj hSplit
    exact ⟨failing, first, later, rfl, (List.forall_mem_cons.mp hFailing).2, hSucceeds, hLeads⟩

theorem Awaited.prepend (h : Awaited code spot stack i)
    (hFails : ∀ thread ∈ threads, Fails code spot thread.node) :
    Awaited code spot (threads ++ stack) i := by
  obtain ⟨failing, first, later, rfl, hFailing, hRest⟩ := h
  exact ⟨threads ++ failing, first, later, (List.append_assoc ..).symm,
    List.forall_mem_append.mpr ⟨hFails, hFailing⟩, hRest⟩

/-- If some threads come to the end, one of them is the first. -/
theorem Settles.awaited {result : Slots} (h : Settles code spot threads (some result))
    (hLeads : ∀ thread ∈ threads, Relation.TransGen (Leads code spot) i thread.node)
    (stack : List Thread) : Awaited code spot (threads ++ stack) i := by
  generalize hSome : some result = r at h
  induction h with
  | nil => cases hSome
  | @cons thread threads a b hThread _ ih =>
    obtain ⟨hHere, hThreads⟩ := List.forall_mem_cons.mp hLeads
    cases a with
    | some first =>
      exact ⟨[], thread, threads ++ stack, rfl, by simp, ⟨_, _, hThread⟩, hHere⟩
    | none =>
      have hFails : ∀ other ∈ [thread], Fails code spot other.node :=
        List.forall_mem_singleton.mpr ⟨_, hThread⟩
      exact (ih hThreads (by simpa using hSome)).prepend hFails

/-! ## Following threads -/

/-- Of a visited node nothing new is to be expected: a thread that succeeds has been found, or the
node fails, or it waits for a thread of the stack. -/
structure Spent (code : Program) (spot : Spot) (visited : Array Bool) (found stack : List Thread) :
    Prop where
  size_eq : visited.size = code.size
  of_visited : ∀ i, visited[i]? = some true → (∃ thread ∈ found, Succeeds code spot thread.node) ∨
    Fails code spot i ∨ Awaited code spot stack i

theorem spent_unvisited (code : Program) (spot : Spot) (found stack : List Thread) :
    Spent code spot (Array.replicate code.size false) found stack :=
  ⟨by simp, fun i hVisited => by simp [Array.getElem?_replicate] at hVisited⟩

variable {visited : Array Bool} {found : List Thread}

namespace Spent

theorem mark {hSize : thread.node < visited.size} (hOld : Spent code spot visited found stack)
    (hNew : (∃ other ∈ found, Succeeds code spot other.node) ∨ Fails code spot thread.node ∨
      Awaited code spot stack thread.node) :
    Spent code spot (visited.set thread.node true hSize) found stack := by
  refine ⟨by rw [Array.size_set, hOld.size_eq], fun i hVisited => ?_⟩
  rw [Array.getElem?_set] at hVisited
  split at hVisited
  · next hHere => exact hHere ▸ hNew
  · exact hOld.of_visited i hVisited

/-- What is known of a visited node may change with the threads. -/
theorem imp {found' stack' : List Thread} (h : Spent code spot visited found stack)
    (hFound : (∃ thread ∈ found, Succeeds code spot thread.node) →
      ∃ thread ∈ found', Succeeds code spot thread.node)
    (hAwaited : ∀ i, Awaited code spot stack i →
      (∃ thread ∈ found', Succeeds code spot thread.node) ∨ Awaited code spot stack' i) :
    Spent code spot visited found' stack' := by
  refine ⟨h.size_eq, fun i hi => ?_⟩
  rcases h.of_visited i hi with hSome | hFails | hStack
  · exact .inl (hFound hSome)
  · exact .inr (.inl hFails)
  · exact (hAwaited i hStack).imp_right .inr

/-- A thread that fails is superfluous. -/
theorem drop_of_fails (h : Spent code spot visited found (thread :: stack))
    (hFails : Fails code spot thread.node)
    (hAll : Settles code spot (found.reverse ++ thread :: stack) r) :
    Spent code spot visited found stack ∧ Settles code spot (found.reverse ++ stack) r := by
  refine ⟨h.imp id fun i hi => .inr (hi.of_fails hFails), ?_⟩
  obtain ⟨a, b, hFound, hStack, rfl⟩ := hAll.of_append
  obtain ⟨x, y, hThread, hRest, rfl⟩ := hStack.of_cons
  cases x with
  | none => exact hFound.append hRest
  | some result => exact absurd ⟨_, _, hThread⟩ hFails.not_succeeds

/-- A thread at a visited node is superfluous. -/
theorem drop (h : Spent code spot visited found (thread :: stack))
    (hVisited : visited[thread.node]? = some true)
    (hAll : Settles code spot (found.reverse ++ thread :: stack) r) :
    Spent code spot visited found stack ∧ Settles code spot (found.reverse ++ stack) r := by
  obtain ⟨a, b, hFound, hStack, rfl⟩ := hAll.of_append
  obtain ⟨x, y, hThread, hRest, rfl⟩ := hStack.of_cons
  cases x with
  | none => exact h.drop_of_fails ⟨_, hThread⟩ hAll
  | some result =>
    have hSucceeds : Succeeds code spot thread.node := ⟨_, _, hThread⟩
    obtain ⟨other, hOther, hFirst⟩ : ∃ other ∈ found, Succeeds code spot other.node := by
      rcases h.of_visited _ hVisited with hFound | hFails | hAwaited
      · exact hFound
      · exact absurd hSucceeds hFails.not_succeeds
      · exact absurd (hAwaited.of_succeeds hSucceeds) hThread.no_cycle
    obtain ⟨first, rfl⟩ :=
      Option.isSome_iff_exists.mp (hFound.isSome (List.mem_reverse.mpr hOther) hFirst)
    exact ⟨h.imp id fun _ _ => .inl ⟨other, hOther, hFirst⟩, (hFound.append hRest :)⟩

/-- The thread on top of the stack is replaced by those that its node leads to. -/
theorem expand (threads : List Thread) (h : Spent code spot visited found (thread :: stack))
    (hAll : Settles code spot (found.reverse ++ thread :: stack) r)
    (hThreads : ∀ {x}, Gives code spot thread.node thread.slots x → Settles code spot threads x)
    (hLeads : ∀ other ∈ threads, Leads code spot thread.node other.node)
    (hSize : thread.node < visited.size) :
    Spent code spot (visited.set thread.node true hSize) found (threads ++ stack) ∧
      Settles code spot (found.reverse ++ (threads ++ stack)) r := by
  obtain ⟨a, b, hFound, hStack, rfl⟩ := hAll.of_append
  obtain ⟨x, y, hThread, hRest, rfl⟩ := hStack.of_cons
  refine ⟨?_, hFound.append ((hThreads hThread).append hRest)⟩
  cases x with
  | none =>
    have hFails : Fails code spot thread.node := ⟨_, hThread⟩
    refine .mark (h.imp id fun i hi => ?_) (.inr (.inl hFails))
    exact .inr ((hi.of_fails hFails).prepend (hThreads hThread).fails)
  | some result =>
    have hOn {i : Nat} (hi : Relation.ReflTransGen (Leads code spot) i thread.node) :
        Awaited code spot (threads ++ stack) i :=
      (hThreads hThread).awaited (fun other hOther => .tail' hi (hLeads other hOther)) stack
    refine .mark (h.imp id fun i hi => ?_) (.inr (.inr (hOn .refl)))
    exact .inr (hOn (hi.of_succeeds ⟨_, _, hThread⟩).to_reflTransGen)

/-- The thread on top of the stack goes no further without reading. -/
theorem settle (h : Spent code spot visited found (thread :: stack))
    (hAll : Settles code spot (found.reverse ++ thread :: stack) r)
    (hSize : thread.node < visited.size) :
    Spent code spot (visited.set thread.node true hSize) (thread :: found) stack ∧
      Settles code spot ((thread :: found).reverse ++ stack) r := by
  refine ⟨?_, by simpa using hAll⟩
  obtain ⟨a, b, -, hStack, -⟩ := hAll.of_append
  obtain ⟨x, y, hThread, -, -⟩ := hStack.of_cons
  have hMore : (∃ other ∈ found, Succeeds code spot other.node) →
      ∃ other ∈ thread :: found, Succeeds code spot other.node :=
    fun ⟨other, hOther, hFirst⟩ => ⟨other, List.mem_cons_of_mem _ hOther, hFirst⟩
  cases x with
  | none =>
    have hFails : Fails code spot thread.node := ⟨_, hThread⟩
    exact .mark (h.imp hMore fun i hi => .inr (hi.of_fails hFails)) (.inr (.inl hFails))
  | some result =>
    have hHere : ∃ other ∈ thread :: found, Succeeds code spot other.node :=
      ⟨thread, List.mem_cons_self, _, _, hThread⟩
    exact .mark (h.imp hMore fun _ _ => .inl hHere) (.inl hHere)

end Spent

/-- To follow threads changes nothing about what the first of them gives. -/
theorem settles_advance (hSpent : Spent code spot visited found stack)
    (hAll : Settles code spot (found.reverse ++ stack) r) :
    Settles code spot (advance code spot.place stack visited found) r := by
  generalize hPlace : spot.place = place
  fun_induction advance code place stack visited found with
  | case1 => simpa using hAll
  | case2 visited found thread stack hSize _ _ set next hNode ih
  | case3 visited found thread stack hSize _ _ hNode ih =>
    obtain ⟨hSpent', hAll'⟩ := hSpent.settle hAll hSize
    exact ih hSpent' hAll'
  | case4 visited found thread stack hSize _ _ condition next hNode hHolds ih =>
    subst hPlace
    have hNext {x} (hThread : Gives code spot thread.node thread.slots x) :
        Gives code spot next thread.slots x := by
      have hTest := hThread.of_test hNode
      rwa [if_pos (by exact hHolds)] at hTest
    obtain ⟨hSpent', hAll'⟩ := hSpent.expand [{ thread with node := next }] hAll
      (fun hThread => .single (hNext hThread))
      (List.forall_mem_singleton.mpr (.test hNode hHolds)) hSize
    exact ih hSpent' hAll'
  | case5 visited found thread stack hSize _ _ condition next hNode hHolds ih =>
    subst hPlace
    have hNone {x} (hThread : Gives code spot thread.node thread.slots x) :
        Settles code spot [] x := by
      have hTest := hThread.of_test hNode
      rw [if_neg (by exact hHolds)] at hTest
      exact hTest ▸ .nil
    obtain ⟨hSpent', hAll'⟩ := hSpent.expand [] hAll hNone (by simp) hSize
    exact ih hSpent' hAll'
  | case6 visited found thread stack hSize _ _ slot next hNode slots ih =>
    subst hPlace
    obtain ⟨hSpent', hAll'⟩ := hSpent.expand [⟨next, slots⟩] hAll
      (fun hThread => .single (hThread.of_note hNode))
      (List.forall_mem_singleton.mpr (.note hNode)) hSize
    exact ih hSpent' hAll'
  | case7 visited found thread stack hSize _ _ first second hNode branches ih =>
    have hBranches {x} (hThread : Gives code spot thread.node thread.slots x) :
        Settles code spot branches x := by
      obtain ⟨a, b, hFirst, hSecond, rfl⟩ := hThread.of_fork hNode
      exact (Settles.single hFirst).append (.single hSecond)
    obtain ⟨hSpent', hAll'⟩ := hSpent.expand branches hAll hBranches
      (List.forall_mem_cons.mpr ⟨.first hNode, List.forall_mem_singleton.mpr (.second hNode)⟩) hSize
    exact ih hSpent' hAll'
  | case8 visited found thread stack hSize _ _ hNode ih =>
    have hNone {x} (hThread : Gives code spot thread.node thread.slots x) :
        Settles code spot [] x :=
      hThread.of_none hNode ▸ .nil
    obtain ⟨hSpent', hAll'⟩ := hSpent.expand [] hAll hNone (by simp) hSize
    exact ih hSpent' hAll'
  | case9 visited found thread stack hSize hThread ih =>
    obtain ⟨hSpent', hAll'⟩ := hSpent.drop (by simpa [hSize] using hThread) hAll
    exact ih hSpent' hAll'
  | case10 visited found thread stack hSize ih =>
    have hNode : code[thread.node]? = none := by simpa [hSpent.size_eq] using hSize
    obtain ⟨hSpent', hAll'⟩ := hSpent.drop_of_fails ⟨#[], .missing hNode⟩ hAll
    exact ih hSpent' hAll'

/-- The thread reads the character that comes next. -/
def Thread.Reads (code : Program) (thread : Thread) : Prop :=
  ∃ set next, code[thread.node]? = some (.read set next)

/-- Where threads stop: at a character that is to be read, or at the end of the pattern. -/
theorem node_of_mem_advance {place : Place}
    (hFound : ∀ thread ∈ found, thread.Reads code ∨ code[thread.node]? = some .accept) :
    ∀ thread ∈ advance code place stack visited found,
      thread.Reads code ∨ code[thread.node]? = some .accept := by
  fun_induction advance code place stack visited found with
  | case1 => simpa using hFound
  | case2 _ _ _ _ _ _ _ set next hNode ih =>
    exact ih (List.forall_mem_cons.mpr ⟨.inl ⟨set, next, hNode⟩, hFound⟩)
  | case3 _ _ _ _ _ _ _ hNode ih =>
    exact ih (List.forall_mem_cons.mpr ⟨.inr hNode, hFound⟩)
  | _ => simp_all

/-! ## Searching -/

theorem settles_splitAccepted
    (hNodes : ∀ thread ∈ threads, thread.Reads code ∨ code[thread.node]? = some .accept)
    (h : Settles code spot threads r) : ∃ a, Settles code spot (splitAccepted code threads).1 a ∧
      (∀ thread ∈ (splitAccepted code threads).1, thread.Reads code) ∧
      r = a.or (splitAccepted code threads).2 := by
  induction h with
  | nil => exact ⟨none, .nil, by simp [splitAccepted], rfl⟩
  | @cons thread threads x y hThread _ ih =>
    obtain ⟨hHere, hRest⟩ := List.forall_mem_cons.mp hNodes
    rcases hHere with ⟨set, next, hNode⟩ | hNode
    · obtain ⟨a, hAhead, hReads, rfl⟩ := ih hRest
      simp only [splitAccepted, hNode]
      exact ⟨_, .cons hThread hAhead, List.forall_mem_cons.mpr ⟨⟨set, next, hNode⟩, hReads⟩,
        (Option.or_assoc ..).symm⟩
    · obtain rfl := hThread.of_accept hNode
      simp only [splitAccepted, hNode]
      exact ⟨none, .nil, by simp, rfl⟩

/-- Threads that are to read give nothing at the end of the text. -/
theorem Settles.eq_none {before : Option Char} {index : Nat}
    (h : Settles code ⟨before, index, []⟩ threads r)
    (hReads : ∀ thread ∈ threads, thread.Reads code) :
    r = none := by
  induction threads generalizing r with
  | nil =>
    cases h
    rfl
  | cons thread threads ih =>
    obtain ⟨⟨set, next, hNode⟩, hRest⟩ := List.forall_mem_cons.mp hReads
    cases h with
    | cons hThread hThreads => rw [hThread.of_read_nil hNode, ih hThreads hRest, Option.or_none]

theorem Settles.read {before : Option Char} {index : Nat} {c : Char} {rest : Text}
    (h : Settles code ⟨before, index, c :: rest⟩ threads r)
    (hReads : ∀ thread ∈ threads, thread.Reads code) :
    Settles code ⟨some c, index + 1, rest⟩ (threads.filterMap (Thread.read? code c)) r := by
  induction threads generalizing r with
  | nil =>
    cases h
    exact .nil
  | cons thread threads ih =>
    obtain ⟨⟨set, next, hNode⟩, hRest⟩ := List.forall_mem_cons.mp hReads
    cases h with
    | cons hThread hThreads =>
      have hNext := hThread.of_read_cons hNode
      split at hNext
      · next hIn =>
        have hRead : Thread.read? code c thread = some ⟨next, thread.slots⟩ := by
          simp [Thread.read?, hNode, hIn]
        rw [List.filterMap_cons_some hRead]
        exact .cons hNext (ih hThreads hRest)
      · next hOut =>
        rw [List.filterMap_cons_none (by simp [Thread.read?, hNode, hOut]), hNext]
        exact ih hThreads hRest

/-- What a position does to the threads, the best match so far and what starts here. -/
theorem settles_visit {machine : Machine} {fresh : Slots} {s : Option Slots} (best : Option Slots)
    (hStart : Gives machine.code spot machine.start fresh s)
    (hThreads : Settles machine.code spot threads r) : ∃ a,
      Settles machine.code spot (visit machine fresh spot.place threads best).1 a ∧
      (∀ thread ∈ (visit machine fresh spot.place threads best).1, thread.Reads machine.code) ∧
      (r.or best).or s = a.or (visit machine fresh spot.place threads best).2 := by
  obtain ⟨all, hAll, hResult⟩ : ∃ all,
      Settles machine.code spot
        (if best.isNone then threads ++ [⟨machine.start, fresh⟩] else threads) all ∧
      (r.or best).or s = all.or best := by
    cases best with
    | none => exact ⟨_, hThreads.append (.single hStart), by simp⟩
    | some b => exact ⟨r, hThreads, by cases r <;> rfl⟩
  have hAhead := settles_advance (spent_unvisited machine.code spot [] _) hAll
  obtain ⟨a, hRest, hReads, rfl⟩ := settles_splitAccepted (node_of_mem_advance (by simp)) hAhead
  exact ⟨a, hRest, hReads, by rw [hResult, Option.or_assoc]; rfl⟩

end Gives

/-- What the first spot gives from which there is a way to the end. -/
def firstFrom (f : Spot → Option Slots) (before : Option Char) (index : Nat) : Text → Option Slots
  | [] => f ⟨before, index, []⟩
  | c :: rest =>
    (f ⟨before, index, c :: rest⟩).or (firstFrom f (some c) (index + 1) rest)

/-- A search finds what the threads so far give, what has been found, or the first match ahead, in
this order. -/
theorem searchFrom_eq {machine : Machine} {fresh : Slots} {f : Spot → Option Slots}
    (hStart : ∀ spot, Gives machine.code spot machine.start fresh (f spot)) {before : Option Char}
    {index : Nat} {t : Text} {threads : List Thread} {r best : Option Slots}
    (hThreads : Settles machine.code ⟨before, index, t⟩ threads r) :
    searchFrom machine fresh before index threads best t =
      (r.or best).or (firstFrom f before index t) := by
  induction t generalizing before index threads r best with
  | nil =>
    obtain ⟨a, hAhead, hReads, hResult⟩ := settles_visit best (hStart _) hThreads
    rw [searchFrom, firstFrom, hResult, hAhead.eq_none hReads]
    rfl
  | cons c rest ih =>
    obtain ⟨a, hAhead, hReads, hResult⟩ := settles_visit best (hStart _) hThreads
    rw [searchFrom, firstFrom, ← Option.or_assoc, hResult]
    change _ = (a.or (visit machine fresh ⟨before, some c, index⟩ threads best).2).or _
    change Settles _ _ (visit machine fresh ⟨before, some c, index⟩ threads best).1 _ at hAhead
    change ∀ thread ∈ (visit machine fresh ⟨before, some c, index⟩ threads best).1, _ at hReads
    generalize visit machine fresh ⟨before, some c, index⟩ threads best = visited at hAhead hReads
    obtain ⟨ahead, best'⟩ := visited
    dsimp only at hAhead hReads ⊢
    split
    · next hDone =>
      obtain ⟨hNil, hBest⟩ := Bool.and_eq_true_iff.mp hDone
      obtain rfl := List.isEmpty_iff.mp hNil
      obtain ⟨found, rfl⟩ := Option.isSome_iff_exists.mp hBest
      cases hAhead
      rfl
    · exact ih (hAhead.read hReads)

end AssetLoom.Pattern
