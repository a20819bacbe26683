import AssetLoom.Proofs.Blame
import AssetLoom.Proofs.Objection
import Mathlib.Data.List.Chain
import Mathlib.Data.List.Nodup

/-!
# Errors tell the truth

What the error of a failed compile tells is so, however deep it comes from
(`compileRoot_error_truthful`). The templates that are being compiled when it occurs are a chain
from the root, in which each one has planned the next one. A circle is a part of this chain; a
missing resource, or one without a destination, is planned by a template at the end of it.
-/

namespace AssetLoom

namespace Session

open Build (Aloof)
open Relation (ReflTransGen)

variable {session : Session} {start build last : Build} {e : CompileError}
  {path root key : String} {stack : List String} {trail : List Build}

/-- A destination that is no string is that of the first rule for a path. -/
theorem destinationOf_eq_error (h : session.destinationOf path = .error e) :
    ∃ rule value, session.rules.find? path = some rule ∧ rule.target = some value ∧
      (∀ text, value ≠ .string text) ∧
      e = .invalidDestination rule.pattern.source value.typeName := by
  unfold destinationOf at h
  cases hRule : session.rules.find? path with
  | none => simp [hRule] at h
  | some rule =>
    simp only [hRule, Option.map_some, Option.getD_some, Rule.destination] at h
    split at h
    · cases h
    · cases h
    · next value hNot hTarget =>
      cases h
      exact ⟨rule, value, rfl, hTarget, fun text hText => hNot text (hText ▸ rfl), rfl⟩

theorem destinationOf_eq_error_of_uriBy
    (h : uriBy (session.rules.find? path) path = .error e) :
    session.destinationOf path = .error e := by
  rw [destinationOf]
  cases hRule : session.rules.find? path with
  | none =>
    rw [hRule] at h
    cases h
  | some rule =>
    rw [hRule] at h
    exact destination_eq_error_of_mapPath h

/-- From the path that is reached again on, the stack is the circle. -/
theorem circle_eq {before inner : List String} {key : String} (hFresh : key ∉ before) :
    Build.circle { stack := before ++ key :: inner } key =
      .cycle (key :: inner ++ [key]) := by
  have hDrop : (before ++ key :: inner).dropWhile (· ≠ key) = key :: inner := by
    rw [List.dropWhile_append_of_pos]
    · simp
    · intro q hq
      simpa using fun hSame : q = key => hFresh (hSame ▸ hq)
  simp only [Build.circle, hDrop, reduceCtorEq, if_false]

/-- What an error of a compile of `root` tells is so. -/
inductive Truthful (session : Session) (start last : Build) (root : String) : CompileError → Prop
  | unknownRoot (hGet : start.resources.get? root = none) :
      Truthful session start last root (.unknownRoot root)
  | unresolved {path referrer : String}
      (hReached : ReflTransGen (session.Engaged start last) root referrer)
      (hEngaged : session.Engaged start last referrer path)
      (hGet : start.resources.get? path = none) :
      Truthful session start last root (.unresolved path referrer)
  /-- It is found before anything is done to the resource, if this is not the root. -/
  | invalidDestination {path : String} {rule : Rule} {value : Toml.Value}
      (hReached : ReflTransGen (session.Engaged start last) root path)
      (hRegistered : (start.resources.get? path).isSome)
      (hRule : session.rules.find? path = some rule) (hTarget : rule.target = some value)
      (hValue : ∀ text, value ≠ .string text) (hAloof : path ≠ root → Aloof path start last) :
      Truthful session start last root (.invalidDestination rule.pattern.source value.typeName)
  | hook {before : Journal} {entry : Entry} {event : Event} {path reason : String}
      (hNew : start.journal <+: before) (hLast : last.journal = before ++ [entry])
      (hObjects : session.Objects before entry (.hook event path reason)) :
      Truthful session start last root (.hook event path reason)
  | cycle {first : String} {inner : List String} (hNodup : (first :: inner).Nodup)
      (hRegistered : ∀ path ∈ first :: inner, (start.resources.get? path).isSome)
      (hChain : (first :: inner ++ [first]).IsChain (session.Engaged start last)) :
      Truthful session start last root (.cycle (first :: inner ++ [first]))

/-- How a compile of `key` within those on the stack has come from the root. -/
structure Trace (session : Session) (start last : Build) (root : String) (stack : List String)
    (key : String) : Prop where
  chain : (stack ++ [key]).IsChain (session.Engaged start last)
  nodup : stack.Nodup
  registered : ∀ path ∈ stack, (start.resources.get? path).isSome
  reached : ReflTransGen (session.Engaged start last) root key
  target : key = root ∨ (start.resources.get? key).isSome ∧
    ∃ found, session.destinationOf key = .ok found

namespace Trace

variable {target : String}

theorem nil : session.Trace start last root [] root :=
  ⟨List.isChain_singleton root, List.nodup_nil, by simp, .refl, .inl rfl⟩

theorem within (h : session.Trace start last root stack key) (hFresh : key ∉ stack)
    (hEngaged : session.Engaged start last key target)
    (hRegistered : (start.resources.get? target).isSome) {found : Option String}
    (hTarget : session.destinationOf target = .ok found) :
    session.Trace start last root (stack ++ [key]) target where
  chain := List.IsChain.append h.chain (List.isChain_singleton target) (by simpa using hEngaged)
  nodup := by
    rw [← List.concat_eq_append]
    exact (List.nodup_concat stack key).mpr ⟨hFresh, h.nodup⟩
  registered := by
    intro path hPath
    rcases List.mem_append.mp hPath with hPath | hPath
    · exact h.registered path hPath
    · rw [List.mem_singleton.mp hPath]
      exact hEngaged.registered
  reached := h.reached.tail hEngaged
  target := .inr ⟨hRegistered, found, hTarget⟩

/-- A circle is cut out of the way from the root. -/
theorem truthful_circle (h : session.Trace start last root stack key) (hOpen : key ∈ stack) :
    session.Truthful start last root (Build.circle { stack } key) := by
  obtain ⟨before, inner, rfl, hFresh⟩ := List.eq_append_cons_of_mem hOpen
  rw [circle_eq hFresh]
  have hSuffix : key :: inner <:+ before ++ key :: inner := List.suffix_append ..
  refine .cycle (h.nodup.sublist hSuffix.sublist) (fun path hPath => ?_) ?_
  · exact h.registered path (hSuffix.subset hPath)
  · have hChain := h.chain
    rw [List.append_assoc] at hChain
    exact hChain.right_of_append

end Trace

/-- The error that a destination causes. -/
theorem truthful_destination (hReached : ReflTransGen (session.Engaged start last) root key)
    (hRegistered : (start.resources.get? key).isSome) (h : session.destinationOf key = .error e)
    (hAloof : key ≠ root → Aloof key start last) : session.Truthful start last root e := by
  obtain ⟨rule, value, hRule, hTarget, hValue, rfl⟩ := destinationOf_eq_error h
  exact .invalidDestination hReached hRegistered hRule hTarget hValue hAloof

/-- The cause at the end of the way from the root is what the error tells. -/
theorem Blames.truthful (h : session.Blames start last e stack key)
    (hTrace : session.Trace start last root stack key)
    (hAloof : ∀ q, session.destinationOf q = .error e → q ≠ root → Aloof q start last)
    (hHook : ∀ event path reason, e = .hook event path reason →
      session.Truthful start last root e) : session.Truthful start last root e := by
  induction h with
  | unknown hGet hCause =>
    subst hCause
    rcases hTrace.target with rfl | ⟨hRegistered, -⟩
    · exact .unknownRoot hGet
    · rw [hGet] at hRegistered
      cases hRegistered
  | circle hOpen hCause =>
    subst hCause
    exact hTrace.truthful_circle hOpen
  | own hRegistered hFault =>
    cases hFault with
    | hook hCause => exact hHook _ _ _ hCause
    | uri hCause =>
      have hTarget := destinationOf_eq_error_of_uriBy hCause
      exact truthful_destination hTrace.reached hRegistered hTarget (hAloof _ hTarget)
  | missing _ hEngaged hGet hCause =>
    subst hCause
    exact .unresolved hTrace.reached hEngaged hGet
  | destination _ hEngaged hRegistered hCause =>
    exact truthful_destination (hTrace.reached.tail hEngaged) hRegistered hCause (hAloof _ hCause)
  | within hFresh hEngaged hRegistered hTarget _ ih =>
    exact ih (hTrace.within hFresh hEngaged hRegistered hTarget)

/-- The observer that an error names has failed, and it was the last one to be told of an event. -/
theorem truthful_hook {event : Event} {reason : String}
    (h : session.Settles start (some (.hook event path reason)) trail last) :
    session.Truthful start last root (.hook event path reason) := by
  cases h with
  | calm _ hHook => exact absurd rfl (hHook event path reason)
  | stopped hStops =>
    cases hStops with
    | intro _ hCalm hObjects _ _ hCloses =>
      exact .hook hCalm.isPrefix hCloses.journal_eq hObjects

/-- Whatever the resources, the rules, the options and the observers are: if a root is compiled
while nothing else is, and this fails, then the error tells the truth. -/
theorem compileRoot_error_truthful (hBuiltIn : session.compilers.BuiltIn)
    (hStack : start.stack = [])
    (hIdle : ∀ path, start.resources.state? path ≠ some .compiling)
    (h : session.compileRoot root start = (.error e, last)) :
    session.Truthful start last root e := by
  have hAmid : Amid start [] start.idle start :=
    ⟨⟨hStack, Nat.le_refl _⟩, .of_idle hStack hIdle, .refl start⟩
  refine (hAmid.compile_blames hBuiltIn h).truthful .nil ?_ ?_
  · intro q hTarget hq
    have hAloof := aloof_compileWithin_of_destination hBuiltIn hTarget start.resources.size hq
      (session.rules.find? root) start
    rw [← compile, ← compileRoot, h] at hAloof
    exact hAloof
  · rintro event path reason rfl
    have hSettles := settles_compile hBuiltIn root (session.rules.find? root) start
    rw [← compileRoot, h] at hSettles
    exact truthful_hook hSettles

/-- A template includes another one, and this one is part of a circle. -/
theorem compileRoot_error_truthful_circle :
    let start : Build := { resources :=
      { entries := [{ path := "a.tpl", kind := .template,
                      content := "\x7b\x7binclude file=\"b.tpl\"\x7d\x7d".toUTF8 },
          { path := "b.tpl", kind := .template,
            content := "\x7b\x7binclude file=\"c.tpl\"\x7d\x7d".toUTF8 },
          { path := "c.tpl", kind := .template,
            content := "\x7b\x7binclude file=\"b.tpl\"\x7d\x7d".toUTF8 }]
        paths_nodup := by decide } }
    let result := Session.compileRoot {} "a.tpl" start
    result.1 = .error (.cycle ["b.tpl", "c.tpl", "b.tpl"]) ∧
      Session.Truthful {} start result.2 "a.tpl" (.cycle ["b.tpl", "c.tpl", "b.tpl"]) := by
  intro start result
  have hOutcome : result.1 = .error (.cycle ["b.tpl", "c.tpl", "b.tpl"]) := by decide +kernel
  have hIdle : ∀ path, start.resources.state? path ≠ some .compiling := by
    intro path h
    obtain ⟨r, hGet, hState⟩ := Registry.state?_eq_some_iff.mp h
    have hMem := (Registry.get?_eq_some_iff.mp hGet).1
    simp only [start, List.mem_cons, List.not_mem_nil, or_false] at hMem
    rcases hMem with rfl | rfl | rfl <;> cases hState
  have hRun : Session.compileRoot {} "a.tpl" start =
      (.error (.cycle ["b.tpl", "c.tpl", "b.tpl"]), result.2) := Prod.ext hOutcome rfl
  exact ⟨hOutcome, compileRoot_error_truthful Compilers.builtIn_default rfl hIdle hRun⟩

end Session

end AssetLoom
