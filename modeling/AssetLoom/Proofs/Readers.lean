import AssetLoom.Proofs.Mark
import AssetLoom.Proofs.Spelling

/-!
# Readers and patterns

A part of a pattern matches what a reader reads, and notes where it is (`Noting.Matches`): one lemma
for each way in which readers are put together. The parts that directives have in common are quoted
values and the search for an attribute (`matches_quoted`, `matches_search`).
-/

namespace AssetLoom.Directive

open Pattern

variable {anyCase : Bool} {name : Text} {sequel : Sequel} {c : Char} {finish : Text → Option Text}

/-! ## Reading and noting -/

/-- What is noted of something that has been read, from the position on at which it starts. -/
structure Noting (α : Type) where
  note : α → Nat → Slots → Slots
  /-- Puts a text in front of what has been read. -/
  prepend : Text → α → α
  note_prepend : ∀ front a index slots,
    note (prepend front a) index slots = note a (index + front.length) slots
  prepend_prepend : ∀ front more a, prepend front (prepend more a) = prepend (front ++ more) a

/-- A part of a pattern matches what is read, and notes it. -/
def Noting.Matches {α : Type} (noting : Noting α) (sequel : Sequel) (read : Text → Option α) :
    Prop :=
  ∀ before index t slots, sequel ⟨before, index, t⟩ slots =
    (read t).map fun a => noting.note a index slots

/-- Reads a character and what comes behind it. -/
def Noting.readOne {α : Type} (noting : Noting α) (p : Char → Bool) (read : Text → Option α) :
    Text → Option α
  | [] => none
  | c :: rest => if p c then (read rest).map (noting.prepend [c]) else none

namespace Noting.Matches

variable {α : Type} {noting : Noting α} {read read' : Text → Option α}

theorem congr (h : noting.Matches sequel read) (hSame : ∀ t, read t = read' t) :
    noting.Matches sequel read' :=
  fun before index t slots => by rw [h, hSame]

theorem blind (h : noting.Matches sequel read) : Blind sequel := by
  intro before before' index rest
  funext slots
  rw [h, h]

theorem oneOf (h : noting.Matches sequel read) (set : CharSet) :
    noting.Matches ((Expr.oneOf set).matchThen sequel) (noting.readOne set.contains read) := by
  intro before index t slots
  cases t with
  | nil => rfl
  | cons c t =>
    rw [Expr.oneOf_cons, readOne]
    split
    · rw [h, Option.map_map]
      simp only [Function.comp_def, noting.note_prepend]
      rfl
    · rfl

/-- A greedy repetition goes on to the first character that is not in its set. -/
theorem greedy (h : noting.Matches sequel read) (set : CharSet)
    (hFails : ∀ c rest, set.contains c = true → read (c :: rest) = none) :
    noting.Matches ((Expr.star set true).matchThen sequel) fun t =>
      (read (t.dropWhile set.contains)).map (noting.prepend (t.takeWhile set.contains)) := by
  intro before index t slots
  rw [h.blind.star_greedy_eq set (fun slots hIn => by rw [h, hFails _ _ hIn]; rfl), h,
    Option.map_map]
  simp only [Function.comp_def, noting.note_prepend]

/-- A lazy repetition stops as soon as what follows can be read. -/
theorem reluctant (h : noting.Matches sequel read) {set : CharSet} (hNil : read' [] = read [])
    (hCons : ∀ c rest, read' (c :: rest) = (read (c :: rest)).or
      (if set.contains c then (read' rest).map (noting.prepend [c]) else none)) :
    noting.Matches ((Expr.star set false).matchThen sequel) read' := by
  intro before index t slots
  induction t generalizing before index with
  | nil => rw [Expr.star_nil, h, hNil]
  | cons c t ih =>
    rw [Expr.star_lazy_cons, h, hCons, ih]
    cases read (c :: t) with
    | some a => rfl
    | none =>
      rw [Option.map_none, Option.none_or, Option.none_or]
      split
      · rw [Option.map_map]
        simp only [Function.comp_def, noting.note_prepend]
        rfl
      · rfl

/-- What may be left out is read if it can be. -/
theorem optional {body : Expr} (hBody : noting.Matches (body.matchThen sequel) read)
    (h : noting.Matches sequel read') :
    noting.Matches ((Expr.repetition body 0 (some 1) true).matchThen sequel) fun t =>
      (read t).or (read' t) := by
  intro before index t slots
  show (body.matchThen sequel _ slots).or (sequel _ slots) = _
  rw [hBody, h, Option.map_or]

theorem spelled (h : noting.Matches sequel read) (hName : ∀ n ∈ name, Text.Unfolded n) :
    noting.Matches ((spelling anyCase name).foldr Expr.matchThen sequel) fun t =>
      (stripName? (sameLetter anyCase) name t).bind fun left =>
        (read left).map (noting.prepend (t.take name.length)) := by
  intro before index t slots
  rw [foldr_spelling hName]
  dsimp only
  cases hStrip : stripName? (sameLetter anyCase) name t with
  | none => rfl
  | some left =>
    obtain ⟨written, rfl, hWritten⟩ := stripName?_eq_some hStrip
    rw [Option.bind_some, Option.bind_some, h, Option.map_map, take_of_forall₂ _ hWritten]
    simp only [Function.comp_def, noting.note_prepend, hWritten.length_eq]

/-- A name that has to end where the word ends. -/
theorem word (h : noting.Matches sequel read) (hName : ∀ n ∈ name, Text.Unfolded n)
    (hNonempty : name ≠ [])
    (hWord : ∀ n ∈ name, ∀ c, sameLetter anyCase n c = true → Text.isWord c = true) :
    noting.Matches
      ((spelling anyCase name).foldr Expr.matchThen
        ((Expr.look (.wordEdge false)).matchThen sequel)) fun t =>
      (stripName? (sameLetter anyCase) name t).bind fun left =>
        if endsWord left then (read left).map (noting.prepend (t.take name.length)) else none := by
  intro before index t slots
  rw [foldr_word hName hNonempty hWord]
  dsimp only
  cases hStrip : stripName? (sameLetter anyCase) name t with
  | none => rfl
  | some left =>
    obtain ⟨written, rfl, hWritten⟩ := stripName?_eq_some hStrip
    rw [Option.bind_some, Option.bind_some, take_of_forall₂ _ hWritten]
    split
    · rw [h, Option.map_map]
      simp only [Function.comp_def, noting.note_prepend, hWritten.length_eq]
    · rfl

end Noting.Matches

/-! ## Ends of directives -/

/-- The end of a directive is noted in the slot 1. -/
def ending : Noting Text where
  note taken index slots := slots.setIfInBounds 1 (some (index + taken.length))
  prepend := (· ++ ·)
  note_prepend front taken index slots := by rw [List.length_append, Nat.add_assoc]
  prepend_prepend front more taken := (List.append_assoc ..).symm

theorem matches_accepted : ending.Matches accepted fun _ => some [] :=
  fun _ _ _ _ => rfl

/-- A character that is written as it is. -/
def sign (anyCase : Bool) (n : Char) : Expr :=
  .oneOf (letterSet anyCase n)

theorem contains_blank : CharSet.blank.contains = Text.isBlank := rfl

/-! ## The address -/

/-- The ends of the address are noted in the slots of a group that its quote determines, the end of
the directive in the slot 1. -/
def addressed (group : Char → Nat) : Noting Cut where
  note cut index slots :=
    let start := index + cut.lead.length
    let slots := slots.setIfInBounds (2 * group cut.quote) (some start)
    let slots := slots.setIfInBounds (2 * group cut.quote + 1) (some (start + cut.address.length))
    slots.setIfInBounds 1 (some (index + cut.text.length))
  prepend := Cut.prepend
  note_prepend front cut index slots := by
    simp only [Cut.text_prepend, List.length_append, ← Nat.add_assoc]
    simp only [Cut.prepend, List.length_append, ← Nat.add_assoc]
  prepend_prepend front more cut := by simp only [Cut.prepend, List.append_assoc]

/-- A value between quotes. -/
def quotedExprs (anyCase : Bool) (group : Nat) (quote : Char) : List Expr :=
  [sign anyCase quote, .group group (.star (others anyCase quote) true), sign anyCase quote]

/-- A group of all characters up to a sign notes where the sign stands. -/
theorem matchThen_group_others {quote : Char} (hQuote : IsSign anyCase quote) (index : Nat)
    (before : Option Char) (start : Nat) (t : Text) (slots : Slots) :
    (Expr.group index (.star (others anyCase quote) true)).matchThen
        ((sign anyCase quote).matchThen sequel) ⟨before, start, t⟩ slots =
      let stop := start + (t.takeWhile (· ≠ quote)).length
      (sign anyCase quote).matchThen sequel ⟨none, stop, t.dropWhile (· ≠ quote)⟩
        ((slots.setIfInBounds (2 * index) (some start)).setIfInBounds (2 * index + 1)
          (some stop)) := by
  let close : Sequel := fun stop slots => (sign anyCase quote).matchThen sequel stop
    (slots.setIfInBounds (2 * index + 1) (some stop.index))
  have hBlind : Blind close := fun _ _ _ _ => rfl
  have hFails {before index c rest} (slots : Slots)
      (hOther : (others anyCase quote).contains c = true) :
      close ⟨before, index, c :: rest⟩ slots = none := by
    rw [contains_others hQuote] at hOther
    show (sign anyCase quote).matchThen sequel ⟨before, index, c :: rest⟩ _ = none
    rw [sign, Expr.oneOf_cons, contains_sign hQuote, if_neg (by simpa using hOther)]
  refine (hBlind.star_greedy_eq _ hFails ..).trans ?_
  rw [contains_others hQuote]

theorem matches_quoted (group : Char → Nat) {quote : Char} (hQuote : IsSign anyCase quote)
    (h : ending.Matches sequel finish) :
    (addressed group).Matches
      ((quotedExprs anyCase (group quote) quote).foldr Expr.matchThen sequel)
      (cutQuoted? [quote] finish) := by
  intro before index t slots
  cases t with
  | nil => rfl
  | cons c t =>
    simp only [quotedExprs, List.foldr_cons, List.foldr_nil]
    rw [sign, Expr.oneOf_cons, contains_sign hQuote, cutQuoted?, ← sign]
    by_cases hc : c = quote
    · subst hc
      rw [if_pos (by simp), if_pos (by simp), matchThen_group_others hQuote]
      cases hDrop : t.dropWhile (· ≠ c) with
      | nil => rfl
      | cons d left =>
        have hMark := Text.eq_of_dropWhile_ne_eq_cons hDrop
        dsimp only
        rw [sign, Expr.oneOf_cons, contains_sign hQuote, if_pos (by simpa using hMark), h]
        simp only [Option.map_map, Function.comp_def, addressed, Cut.text, List.length_append,
          List.length_cons, List.length_nil]
        refine Option.map_congr fun taken _ => ?_
        simp only [ending]
        congr 2
        omega
    · simp [hc]

/-- A value in one of two kinds of quotes. -/
theorem cutQuoted?_pair (quote quote' : Char) (hNe : quote ≠ quote') (finish : Text → Option Text)
    (t : Text) : cutQuoted? [quote, quote'] finish t =
      (cutQuoted? [quote] finish t).or (cutQuoted? [quote'] finish t) := by
  cases t with
  | nil => rfl
  | cons c t =>
    simp only [cutQuoted?, List.contains_cons, List.contains_nil, Bool.or_false, beq_iff_eq,
      Bool.or_eq_true]
    by_cases hc : c = quote
    · simp [hc, hNe]
    · by_cases hc' : c = quote' <;> simp [hc, hc', hNe.symm]

/-- An attribute, from the blank before its name up to the equals sign. -/
def attributeExprs (anyCase : Bool) (name : Text) : List Expr :=
  .oneOf .blank :: spelling anyCase (name ++ ['='])

theorem matches_attribute {group : Char → Nat} {form : AttributeForm}
    (hSame : form.same = sameLetter anyCase) (hName : ∀ n ∈ form.name, Text.Unfolded n)
    (h : (addressed group).Matches sequel (cutQuoted? form.quotes finish)) :
    (addressed group).Matches ((attributeExprs anyCase form.name).foldr Expr.matchThen sequel)
      (cutAttribute? form finish) := by
  have hAll : ∀ n ∈ form.name ++ ['='], Text.Unfolded n := by
    simpa [or_imp, forall_and] using ⟨hName, by decide⟩
  have hEquals : IsSign anyCase '=' := fun _ => by decide
  refine ((h.spelled hAll).oneOf .blank).congr fun t => ?_
  cases t with
  | nil => rfl
  | cons c rest =>
    rw [Noting.readOne, cutAttribute?, contains_blank, hSame, stripName?_append_name]
    split
    · cases hStrip : stripName? (sameLetter anyCase) form.name rest with
      | none => rfl
      | some left =>
        obtain ⟨written, rfl, hWritten⟩ := stripName?_eq_some hStrip
        cases left with
        | nil => rfl
        | cons d value =>
          rw [take_of_forall₂ _ hWritten]
          by_cases hd : d = '='
          · subst hd
            have hTake : (written ++ '=' :: value).take (form.name.length + 1) =
                written ++ ['='] := by
              rw [hWritten.length_eq, List.take_length_add_append]
              rfl
            simp [stripName?, sameLetter_sign hEquals, hTake, addressed, Cut.prepend,
              Function.comp_def]
          · simp [stripName?, sameLetter_sign hEquals, hd]
    · rfl

/-- The search for an attribute goes over what is not the character that ends it. -/
theorem matches_search {group : Char → Nat} {form : AttributeForm}
    (hStop : IsSign anyCase form.stop)
    (h : (addressed group).Matches sequel (cutAttribute? form finish)) :
    (addressed group).Matches ((Expr.star (others anyCase form.stop) false).matchThen sequel)
      (findAttribute? form finish) := by
  refine h.reluctant rfl fun c rest => ?_
  rw [findAttribute?, contains_others hStop]
  cases cutAttribute? form finish (c :: rest) with
  | some cut => rfl
  | none => by_cases hc : c = form.stop <;> simp [hc, addressed]

end AssetLoom.Directive
