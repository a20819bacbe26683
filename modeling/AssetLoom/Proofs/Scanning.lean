import AssetLoom.Proofs.Position

/-!
# What a scan finds

A scan goes over what its reader does not read (`PassesOver.scanFrom_eq`), and on behind each
directive that is read (`scanFrom_of_read`). So of a text in which directives stand between gaps
it finds these directives, each at its place, and no other one (`scanFrom_woven`).
-/

namespace AssetLoom.Directive

open Text (byteLength)

/-- Nothing is read at any place of the front of a text. -/
def PassesOver (read : Reader) (front rest : Text) : Prop :=
  ∀ x y, front = x ++ y → y ≠ [] → read (y ++ rest) = none

theorem PassesOver.nil (read : Reader) (rest : Text) : PassesOver read [] rest :=
  fun _ _ hSplit hNonempty => absurd (List.append_eq_nil_iff.mp hSplit.symm).2 hNonempty

theorem PassesOver.tail {read : Reader} {c : Char} {front rest : Text}
    (h : PassesOver read (c :: front) rest) : PassesOver read front rest :=
  fun x y hFront => h (c :: x) y (congrArg (c :: ·) hFront)

theorem PassesOver.cons {read : Reader} {c : Char} {front rest : Text}
    (hHere : read (c :: (front ++ rest)) = none) (h : PassesOver read front rest) :
    PassesOver read (c :: front) rest := by
  intro x y hSplit hNonempty
  cases x with
  | nil =>
    obtain rfl : c :: front = y := hSplit
    exact hHere
  | cons d x => exact h x y (List.cons.inj hSplit).2 hNonempty

theorem PassesOver.append {read : Reader} {front middle rest : Text}
    (hFront : PassesOver read front (middle ++ rest)) (hMiddle : PassesOver read middle rest) :
    PassesOver read (front ++ middle) rest := by
  induction front with
  | nil => exact hMiddle
  | cons c front ih =>
    refine PassesOver.cons ?_ (ih hFront.tail)
    show read (c :: (front ++ middle ++ rest)) = none
    rw [List.append_assoc]
    exact hFront [] (c :: front) rfl (by simp)

theorem PassesOver.scanFrom_eq {read : Reader} {front rest : Text}
    (h : PassesOver read front rest) (offset : Nat) :
    scanFrom read offset 0 (front ++ rest) =
      scanFrom read (offset + byteLength front) 0 rest := by
  induction front generalizing offset with
  | nil => rfl
  | cons c front ih =>
    have hHere : read (c :: (front ++ rest)) = none := h [] (c :: front) rfl (by simp)
    rw [List.cons_append, scanFrom, hHere]
    rw [ih h.tail, Text.byteLength_cons, Nat.add_assoc]

theorem scanFrom_skip (read : Reader) (offset : Nat) (t rest : Text) :
    scanFrom read offset t.length (t ++ rest) =
      scanFrom read (offset + byteLength t) 0 rest := by
  induction t generalizing offset with
  | nil => rfl
  | cons c t ih =>
    rw [List.cons_append, List.length_cons, scanFrom, ih, Text.byteLength_cons, Nat.add_assoc]

theorem scanFrom_of_read {read : Reader} {kind : DirectiveKind} {cut : Cut} {rest : Text}
    (hRead : read (cut.text ++ rest) = some (kind, cut)) (hNonempty : cut.text ≠ [])
    (offset : Nat) : scanFrom read offset 0 (cut.text ++ rest) =
      ofCut offset kind cut :: scanFrom read (offset + byteLength cut.text) 0 rest := by
  obtain ⟨c, t, hText⟩ := List.exists_cons_of_ne_nil hNonempty
  have hHere : read (c :: (t ++ rest)) = some (kind, cut) := by
    rw [← hRead, hText, List.cons_append]
  have hLength : cut.text.length - 1 = t.length := by rw [hText]; rfl
  rw [hText, List.cons_append, scanFrom, hHere]
  simp only [hLength, scanFrom_skip, Text.byteLength_cons, Nat.add_assoc]

/-- If something is read anywhere, there is a first place. -/
theorem passesOver_or_read (read : Reader) (t : Text) : PassesOver read t [] ∨
    ∃ gap rest kind cut, t = gap ++ rest ∧ PassesOver read gap rest ∧
      read rest = some (kind, cut) := by
  induction t with
  | nil => exact .inl (.nil read [])
  | cons c t ih =>
    cases hHere : read (c :: t) with
    | some found => exact .inr ⟨[], c :: t, found.1, found.2, rfl, .nil read _, hHere⟩
    | none =>
      refine ih.imp (fun hAll => .cons (by simpa using hHere) hAll) ?_
      rintro ⟨gap, rest, kind, cut, rfl, hGap, hRead⟩
      exact ⟨c :: gap, rest, kind, cut, rfl, .cons hHere hGap, hRead⟩

/-- A front is gone over exactly if no directive starts in it. -/
theorem passesOver_iff {read : Reader} {front rest : Text} (offset : Nat) :
    PassesOver read front rest ↔ ∀ found ∈ scanFrom read offset 0 (front ++ rest),
      offset + byteLength front ≤ found.span.start := by
  constructor
  · intro h found hFound
    rw [h.scanFrom_eq] at hFound
    obtain ⟨x, y, kind, cut, -, -, -, rfl⟩ := exists_read_of_mem_scanFrom hFound
    exact Nat.le_add_right ..
  · intro h
    induction front generalizing offset with
    | nil => exact .nil read rest
    | cons c front ih =>
      have hHere : read (c :: (front ++ rest)) = none := by
        rw [Option.eq_none_iff_forall_ne_some]
        rintro ⟨kind, cut⟩ hRead
        have hFirst : ofCut offset kind cut ∈ scanFrom read offset 0 (c :: front ++ rest) := by
          rw [List.cons_append, scanFrom, hRead]
          exact List.mem_cons_self
        have := h _ hFirst
        have := c.utf8Size_pos
        simp only [ofCut, Text.byteLength_cons] at *
        omega
      refine .cons hHere (ih (offset + c.utf8Size) fun found hFound => ?_)
      have hLater : found ∈ scanFrom read offset 0 (c :: front ++ rest) := by
        rw [List.cons_append, scanFrom, hHere]
        exact hFound
      have := h found hLater
      rw [Text.byteLength_cons] at this
      omega

/-- Tags start with an angle bracket. -/
theorem passesOver_of_notMem {front : Text} (h : '<' ∉ front) (rest : Text) :
    PassesOver readEmbed front rest := by
  intro x y hSplit hNonempty
  rw [Option.eq_none_iff_forall_ne_some]
  rintro ⟨kind, cut⟩ hRead
  obtain ⟨⟨behind, hText⟩, -, hHead⟩ := sound_readEmbed _ _ _ hRead
  obtain ⟨c, y, rfl⟩ := List.exists_cons_of_ne_nil hNonempty
  obtain ⟨t, hCut⟩ := List.head?_eq_some_iff.mp (hHead (kind_of_readEmbed hRead))
  rw [hCut] at hText
  obtain rfl := (List.cons.inj hText).1
  exact h (by simp [hSplit])

/-! ## Directives between gaps -/

section

variable {α : Type} (text : α → Text) (directive : α → Nat → Directive)

/-- Written directives, each with the text behind it. -/
def woven : List (α × Text) → Text
  | [] => []
  | (e, gap) :: rest => text e ++ (gap ++ woven rest)

/-- The directives at their places, when the first one starts at a byte offset. -/
def placed : Nat → List (α × Text) → List Directive
  | _, [] => []
  | offset, (e, gap) :: rest =>
    directive e offset :: placed (offset + byteLength (text e) + byteLength gap) rest

variable {text directive}

theorem scanFrom_woven {read : Reader} {Gap : Text → Prop}
    (hGap : ∀ gap es, Gap gap → PassesOver read gap (woven text es))
    (hRead : ∀ e gap es, Gap gap → ∃ kind cut, cut.text = text e ∧ cut.text ≠ [] ∧
      read (text e ++ (gap ++ woven text es)) = some (kind, cut) ∧
      ∀ offset, ofCut offset kind cut = directive e offset)
    {es : List (α × Text)} (hEach : ∀ p ∈ es, Gap p.2) (offset : Nat) :
    scanFrom read offset 0 (woven text es) = placed text directive offset es := by
  induction es generalizing offset with
  | nil => rfl
  | cons p es ih =>
    obtain ⟨e, gap⟩ := p
    obtain ⟨hFirst, hEach⟩ := List.forall_mem_cons.mp hEach
    obtain ⟨kind, cut, hText, hNonempty, hCut, hDirective⟩ := hRead e gap es hFirst
    rw [woven, placed, ← hText, ← hDirective]
    rw [scanFrom_of_read (hText ▸ hCut) hNonempty, (hGap gap es hFirst).scanFrom_eq, ih hEach]

end

end AssetLoom.Directive
