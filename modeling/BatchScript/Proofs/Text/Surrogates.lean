import Mathlib.Data.List.Chain
import BatchScript.Text.Basic

/-!
# Pairs of surrogates

UTF-16 has two units for a character above the basic plane, and these are the numbers of two
surrogates, one of the first half of them and one of the second. A format that writes the units of a
text writes such a character and its two surrogates alike. So it tells a text up to joining: every
two surrogates that make a character give way to it.

> `CodePoint.pair?_eq_some_iff`: two code points are joined when their numbers are the two units of
> a character above the basic plane;
> `Text.pairFree_joined`: a joined text holds no pair.
-/

namespace BatchScript

namespace CodePoint

/-- The character above the basic plane that two surrogates make, if they make one. -/
def pair? : CodePoint → CodePoint → Option CodePoint
  | .surrogate first, .surrogate second =>
    if first.val < 0x400 ∧ 0x400 ≤ second.val then
      some (ofNat (0x10000 + (0x400 * first.val + (second.val - 0x400))))
    else none
  | _, _ => none

/-- A number below `0x110000` is the number of its code point. -/
theorem toNat_ofNat {n : Nat} (h : n < 0x110000) : (ofNat n).toNat = n := by
  unfold ofNat
  split
  · next hrange =>
    simp only [toNat]
    omega
  · next hrange =>
    have hvalid : n.isValidChar := by
      rw [Nat.isValidChar]
      omega
    rw [toNat, Char.ofNat, dif_pos hvalid]
    rfl

/-- Code points with one number are one. -/
theorem toNat_injective : Function.Injective toNat := fun c d h => by
  rw [← ofNat_toNat c, h, ofNat_toNat]

/-- A code point with the number of a surrogate is one. -/
theorem eq_surrogate {c : CodePoint} {n : Nat} (h : c.toNat = 0xD800 + n) (hn : n < 0x800) :
    c = surrogate ⟨n, hn⟩ :=
  toNat_injective h

/-- Two code points are joined to a character when their numbers are its two units. -/
theorem pair?_eq_some_iff {c d e : CodePoint} : pair? c d = some e ↔
    0x10000 ≤ e.toNat ∧ c.toNat = 0xD800 + (e.toNat - 0x10000) / 0x400 ∧
      d.toNat = 0xDC00 + (e.toNat - 0x10000) % 0x400 := by
  constructor
  · intro h
    unfold pair? at h
    split at h
    · next first second =>
      split at h
      · next hhalves =>
        obtain rfl := Option.some.inj h
        rw [toNat_ofNat (by omega), toNat, toNat]
        omega
      · cases h
    · cases h
  · rintro ⟨habove, hfirst, hsecond⟩
    have hbound := e.toNat_lt
    -- the quotient is below the second half of the surrogates, and the remainder is put into it
    have hhigh : (e.toNat - 0x10000) / 0x400 < 0x400 := by omega
    have hlow : 0x400 + (e.toNat - 0x10000) % 0x400 < 0x800 := by omega
    have hc := eq_surrogate hfirst (Nat.lt_trans hhigh (by decide))
    have hd := eq_surrogate (hsecond.trans (by omega)) hlow
    rw [hc, hd, pair?, if_pos ⟨hhigh, Nat.le_add_right _ _⟩]
    have hnumber : 0x10000 + (0x400 * ((e.toNat - 0x10000) / 0x400) +
        (0x400 + (e.toNat - 0x10000) % 0x400 - 0x400)) = e.toNat := by omega
    rw [hnumber, ofNat_toNat]

end CodePoint

namespace Text

open CodePoint (pair?)

/-- A text with the character above the basic plane in place of every two surrogates that make
one. -/
def joined : Text → Text
  | [] => []
  | [c] => [c]
  | c :: d :: t =>
    match pair? c d with
    | some e => e :: joined t
    | none => c :: joined (d :: t)

/-- Whether no two neighbours of a text make a character. -/
def PairFree (t : Text) : Prop :=
  t.IsChain fun c d => pair? c d = none

instance (t : Text) : Decidable t.PairFree :=
  inferInstanceAs (Decidable (t.IsChain _))

/-- Two surrogates that make a character become this character. -/
theorem joined_of_pair {c d e : CodePoint} (h : pair? c d = some e) (t : Text) :
    joined (c :: d :: t) = e :: joined t := by
  rw [joined, h]

/-- A code point that makes no character with the next one stays. -/
theorem joined_of_apart {c d : CodePoint} (h : pair? c d = none) (t : Text) :
    joined (c :: d :: t) = c :: joined (d :: t) := by
  rw [joined, h]

/-- A joined text starts as the text does, or with a character above the basic plane. -/
theorem head?_joined (c : CodePoint) (t : Text) :
    ∃ d, (joined (c :: t)).head? = some d ∧ (d = c ∨ 0x10000 ≤ d.toNat) := by
  cases t with
  | nil => exact ⟨c, rfl, .inl rfl⟩
  | cons d t =>
    cases h : pair? c d with
    | some e => exact ⟨e, by rw [joined_of_pair h]; rfl, .inr (CodePoint.pair?_eq_some_iff.1 h).1⟩
    | none => exact ⟨c, by rw [joined_of_apart h]; rfl, .inl rfl⟩

/-- A character above the basic plane is no surrogate, so it makes no pair with a neighbour. -/
theorem pair?_eq_none_of_above {c d : CodePoint} (h : 0x10000 ≤ c.toNat ∨ 0x10000 ≤ d.toNat) :
    pair? c d = none := by
  rw [Option.eq_none_iff_forall_ne_some]
  intro e he
  have hunits := CodePoint.pair?_eq_some_iff.1 he
  have hbound := e.toNat_lt
  omega

/-- A joined text holds no pair. -/
theorem pairFree_joined : ∀ t : Text, PairFree (joined t)
  | [] => .nil
  | [_] => .singleton _
  | c :: d :: t => by
    cases h : pair? c d with
    | some e =>
      rw [joined_of_pair h]
      refine List.isChain_cons.2 ⟨fun _ _ => ?_, pairFree_joined t⟩
      exact pair?_eq_none_of_above (.inl (CodePoint.pair?_eq_some_iff.1 h).1)
    | none =>
      rw [joined_of_apart h]
      refine List.isChain_cons.2 ⟨fun e he => ?_, pairFree_joined (d :: t)⟩
      -- what follows is the next code point, or a character that it has joined
      obtain ⟨front, hfront, hcase⟩ := head?_joined d t
      rw [hfront] at he
      cases he
      rcases hcase with rfl | habove
      · exact h
      · exact pair?_eq_none_of_above (.inr habove)

/-- Joining keeps a text without pairs, and no other. -/
theorem joined_eq_self_iff {t : Text} : joined t = t ↔ PairFree t := by
  refine ⟨fun h => h ▸ pairFree_joined t, fun h => ?_⟩
  induction t with
  | nil => rfl
  | cons c t ih =>
    cases t with
    | nil => rfl
    | cons d t =>
      obtain ⟨hpair, hlater⟩ := List.isChain_cons_cons.1 h
      rw [joined_of_apart hpair, ih hlater]

/-- A text of characters holds no pair. -/
@[simp]
theorem joined_text (s : String) : joined s.text = s.text := by
  rw [joined_eq_self_iff, String.text]
  induction s.toList with
  | nil => exact .nil
  | cons c cs ih => exact List.isChain_cons.2 ⟨fun _ _ => rfl, ih⟩

/-- Where a character is written as its two surrogates are, joining does not change what is
written. -/
theorem flatMap_joined {α : Type} {write : CodePoint → List α}
    (hwrite : ∀ c d e, pair? c d = some e → write e = write c ++ write d) :
    ∀ t : Text, (joined t).flatMap write = t.flatMap write
  | [] => rfl
  | [_] => rfl
  | c :: d :: t => by
    cases h : pair? c d with
    | some e =>
      rw [joined_of_pair h, List.flatMap_cons, List.flatMap_cons, List.flatMap_cons,
        flatMap_joined hwrite t, hwrite c d e h, List.append_assoc]
    | none =>
      rw [joined_of_apart h, List.flatMap_cons, List.flatMap_cons,
        flatMap_joined hwrite (d :: t)]

end Text

end BatchScript
