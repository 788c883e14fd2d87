import BatchScript.Proofs.Statement.Grammar

/-!
# Every token belongs to one statement

A script that is read cuts its tokens into segments, one for each statement and in the same order.
A segment is what its statement is made of, it is as long as the grammar allows where it stands, and
it is read as this statement alone when nothing else is there.

> `read_eq_ok_iff_segments`: such a cut exists exactly when the script is read as these statements.
-/

namespace BatchScript

namespace Script

/-- What makes up one statement is read as this statement alone. -/
theorem read_singleton {s : Statement} {ts : List PlacedToken} (h : s.MadeOf ts) :
    (read ts).result = .ok [s] := by
  have hone : MadeOf [s] (ts ++ []) := .cons h s.before_nil .nil
  rw [List.append_nil] at hone
  exact read_eq_ok_iff.2 hone

/-- The tokens of a script in segments, one for each statement. -/
def Segments (segments : List (List PlacedToken)) (ss : List Statement) : Prop :=
  segments.length = ss.length ∧
    ∀ (k : Nat) (segment : List PlacedToken) (s : Statement),
      segments[k]? = some segment → ss[k]? = some s →
        segment ≠ [] ∧ s.MadeOf segment ∧ s.Before (segments.drop (k + 1)).flatten ∧
          (read segment).result = .ok [s]

theorem Segments.cons {segment : List PlacedToken} {segments : List (List PlacedToken)}
    {s : Statement} {ss : List Statement} (hs : s.MadeOf segment)
    (hend : s.Before segments.flatten) (h : Segments segments ss) :
    Segments (segment :: segments) (s :: ss) := by
  refine ⟨by rw [List.length_cons, List.length_cons, h.1], ?_⟩
  intro k segment' s' hsegment hs'
  cases k with
  | zero =>
    cases hsegment
    cases hs'
    exact ⟨Statement.ne_nil_of_madeOf hs, hs, hend, read_singleton hs⟩
  | succ k => exact h.2 k segment' s' hsegment hs'

/-- The tokens that make up a script can be cut into segments. -/
theorem MadeOf.exists_segments {ss : List Statement} {ts : List PlacedToken} (h : MadeOf ss ts) :
    ∃ segments, segments.flatten = ts ∧ Segments segments ss := by
  induction h with
  | nil => exact ⟨[], rfl, rfl, fun k _ _ hk => by cases k <;> cases hk⟩
  | @cons s ss ts rest hs hend _ ih =>
    obtain ⟨segments, hflat, hsegments⟩ := ih
    refine ⟨ts :: segments, by rw [List.flatten_cons, hflat], hsegments.cons hs ?_⟩
    rw [hflat]
    exact hend

/-- Segments make up a script. -/
theorem Segments.madeOf : ∀ {segments : List (List PlacedToken)} {ss : List Statement},
    Segments segments ss → MadeOf ss segments.flatten
  | [], [], _ => .nil
  | segment :: segments, s :: ss, h => by
    obtain ⟨-, hs, hend, -⟩ := h.2 0 segment s rfl rfl
    have hlater : Segments segments ss :=
      ⟨Nat.succ.inj h.1, fun k segment' s' => h.2 (k + 1) segment' s'⟩
    exact .cons hs hend hlater.madeOf
  | [], _ :: _, h => by cases h.1
  | _ :: _, [], h => by cases h.1

/-- **A script is read as some statements exactly when its tokens are segments, one for each
statement.** No token is lost, read twice or moved from one statement to another, and each statement
has its fields from its own segment. -/
theorem read_eq_ok_iff_segments (ts : List PlacedToken) (ss : List Statement) :
    (read ts).result = .ok ss ↔ ∃ segments, segments.flatten = ts ∧ Segments segments ss := by
  rw [read_eq_ok_iff]
  constructor
  · exact MadeOf.exists_segments
  · rintro ⟨segments, rfl, h⟩
    exact h.madeOf

end Script

end BatchScript
