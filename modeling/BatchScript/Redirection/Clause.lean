import BatchScript.Log

/-!
# Redirection clauses

A clause is a marker, which is one of the four operators that redirect output, and a bare word, the
target. Several clauses may follow one another; the last one counts. A marker without a word behind
it ends the clauses and is left in place.
-/

namespace BatchScript

namespace Redirection

/-- What the clauses at the front of a list of tokens come to: the redirection in force, the tokens
behind the clauses, and the notes on overridden and dangling ones. -/
structure Clauses where
  redirection : Option Redirection
  rest : List PlacedToken
  log : List Log.Entry

/-- The notes on a clause that follows the redirection `kept`. -/
def overriding (kept : Option Redirection) (marker : PlacedToken) (target : Text) :
    List Log.Entry :=
  match kept with
  | none => []
  | some r => [.overridden r.target marker target]

/-- The clauses at the front of a list of tokens, behind clauses that came to `kept`. -/
def clausesAfter (kept : Option Redirection) : List PlacedToken → Clauses
  | [] => ⟨kept, [], []⟩
  | marker :: ts =>
    match marker.kind.redirection? with
    | none => ⟨kept, marker :: ts, []⟩
    | some kind =>
      match ts with
      | [] => ⟨kept, [marker], [.dangling marker kept]⟩
      | target :: rest =>
        if target.isWord then
          let later := clausesAfter (some ⟨kind, target.value⟩) rest
          { later with log := overriding kept marker target.value ++ later.log }
        else ⟨kept, marker :: target :: rest, [.dangling marker kept]⟩

/-- The clauses at the front of a list of tokens. -/
def clauses (ts : List PlacedToken) : Clauses :=
  clausesAfter none ts

/-- Clauses take tokens from the front only. -/
theorem clausesAfter_suffix (kept : Option Redirection) (ts : List PlacedToken) :
    (clausesAfter kept ts).rest <:+ ts := by
  fun_induction clausesAfter kept ts with
  | case1 => exact List.suffix_rfl
  | case2 => exact List.suffix_rfl
  | case3 => exact List.suffix_rfl
  | case4 kept marker kind _ target rest _ later ih =>
    exact ih.trans ⟨[marker, target], rfl⟩
  | case5 => exact List.suffix_rfl

end Redirection

end BatchScript
