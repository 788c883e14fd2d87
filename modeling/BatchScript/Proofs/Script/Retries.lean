import Mathlib.Data.List.Forall2
import BatchScript.Proofs.Script.Failure

/-!
# Reading on after an error

A stream that has met an error can be asked again. It stands behind the assignment at fault and its
words, and nothing but the tokens behind them tells what the next call gives: no comment is open
there, so the same assignments are at fault as in the whole list. Each failure takes tokens, so the
calls come to an end.

> `Stream.calls_behind`: calls do not depend on the tokens that have been read;
> `calls_report`: what the calls on one stream report, and how they go on.
-/

namespace BatchScript

/-- A reading takes tokens from the front only, also when it fails. -/
theorem Script.rest_read_suffix (ts : List PlacedToken) : (read ts).rest <:+ ts := by
  cases read_ends ts with
  | whole _ _ hrest =>
    rw [hrest]
    exact List.nil_suffix
  | fault _ _ hrest =>
    rw [hrest]
    exact (List.dropWhile_suffix _).trans (List.drop_suffix _ _)

/-- A reading that fails has taken the assignment at fault. -/
theorem Script.rest_read_length_lt {ts : List PlacedToken} {e : SyntaxError}
    (h : (read ts).result = .error e) : (read ts).rest.length < ts.length := by
  cases read_ends ts with
  | whole _ hresult =>
    rw [h] at hresult
    cases hresult
  | @fault i t hbad _ hrest =>
    have hlt : i < ts.length := (List.getElem?_eq_some_iff.1 hbad.1.get).1
    have hlen : (afterWords (ts.drop (i + 1))).length ≤ (ts.drop (i + 1)).length :=
      (List.dropWhile_suffix _).length_le
    rw [List.length_drop] at hlen
    rw [hrest]
    omega

namespace Token

namespace Stream

/-! ## Calls -/

/-- What a call gives: the statements or an error, the stream that it leaves, and the notes. -/
structure Call where
  result : Except SyntaxError (List Statement)
  stream : Stream
  log : List Log.Entry

/-- A call for all statements that are left. -/
def call (s : Stream) : Call :=
  ⟨s.script.1, s.script.2.1, s.script.2.2⟩

/-- A call that fails takes tokens. -/
theorem rest_call_of_error {s : Stream} {e : SyntaxError} (h : s.call.result = .error e) :
    s.call.stream.rest.length < s.rest.length := by
  have hleft : s.call.stream.rest = (Script.read s.rest).rest :=
    rest_leaving ((Script.rest_read_suffix s.rest).trans s.rest_suffix)
  rw [hleft]
  exact Script.rest_read_length_lt h

/-- The calls on one stream, each on what the one before has left, up to the first that does not
fail. -/
def calls (s : Stream) : List Call :=
  match _h : s.call.result with
  | .ok _ => [s.call]
  | .error _ => s.call :: s.call.stream.calls
  termination_by s.rest.length
  decreasing_by exact rest_call_of_error _h

/-- A call that does not fail is the last one. -/
theorem calls_of_ok {s : Stream} {ss : List Statement} (h : s.call.result = .ok ss) :
    s.calls = [s.call] := by
  rw [calls]
  split
  · rfl
  · next h' =>
    rw [h] at h'
    cases h'

/-- Behind a call that fails come the calls on the stream that it leaves. -/
theorem calls_of_error {s : Stream} {e : SyntaxError} (h : s.call.result = .error e) :
    s.calls = s.call :: s.call.stream.calls := by
  rw [calls]
  split
  · next h' =>
    rw [h] at h'
    cases h'
  · rfl

/-! ## Tokens that have been read -/

/-- A stream with more tokens in front, which have been read. -/
def behind (front : List PlacedToken) (s : Stream) : Stream :=
  ⟨front ++ s.tokens, front.length + s.position⟩

/-- The same call with more tokens in front. -/
def Call.behind (front : List PlacedToken) (c : Call) : Call :=
  ⟨c.result, c.stream.behind front, c.log⟩

theorem behind_ofList (front rest : List PlacedToken) :
    (ofList rest).behind front = ⟨front ++ rest, front.length⟩ := rfl

/-- A stream stands behind its first tokens as one of the others with these in front. -/
theorem behind_ofList_drop {ts : List PlacedToken} {n : Nat} (h : n ≤ ts.length) :
    (ofList (ts.drop n)).behind (ts.take n) = ⟨ts, n⟩ := by
  rw [behind_ofList, List.take_append_drop, List.length_take, Nat.min_eq_left h]

/-- More tokens in front, which have been read, leave the same tokens to read. -/
theorem rest_behind (front : List PlacedToken) (s : Stream) : (s.behind front).rest = s.rest :=
  List.drop_length_add_append _

theorem leaving_behind (front : List PlacedToken) {s : Stream} {rest : List PlacedToken}
    (h : rest.length ≤ s.tokens.length) :
    (s.behind front).leaving rest = (s.leaving rest).behind front := by
  simp only [leaving, behind, List.length_append, Stream.mk.injEq, true_and]
  omega

/-- A call does not depend on tokens in front. -/
theorem call_behind (front : List PlacedToken) (s : Stream) :
    (s.behind front).call = s.call.behind front := by
  have hlen : (Script.read s.rest).rest.length ≤ s.tokens.length :=
    ((Script.rest_read_suffix s.rest).trans s.rest_suffix).length_le
  have hleft := leaving_behind front hlen
  simp only [call, script, take, rest_behind, hleft]
  rfl

/-- Calls do not depend on the tokens that have been read. -/
theorem calls_behind (front : List PlacedToken) (s : Stream) :
    (s.behind front).calls = s.calls.map (·.behind front) := by
  have hcall := call_behind front s
  cases h : s.call.result with
  | ok ss =>
    have h' : (s.behind front).call.result = .ok ss := by rw [hcall]; exact h
    rw [calls_of_ok h, calls_of_ok h', hcall]
    rfl
  | error e =>
    have h' : (s.behind front).call.result = .error e := by rw [hcall]; exact h
    have hlt := rest_call_of_error h
    rw [calls_of_error h, calls_of_error h', hcall, List.map_cons, ← calls_behind]
    rfl
  termination_by s.rest.length

/-- After a call that is not the last one come the calls on the stream that it leaves. -/
theorem calls_eq_append {c : Call} {after : List Call} (hafter : after ≠ []) :
    ∀ {before : List Call} {s : Stream}, s.calls = before ++ c :: after →
      c.stream.tokens = s.tokens ∧ c.stream.position ≤ s.tokens.length ∧
        after = c.stream.calls := by
  intro before
  induction before with
  | nil =>
    -- the call is the first one, and it fails since there is another
    intro s h
    cases hresult : s.call.result with
    | ok ss =>
      rw [calls_of_ok hresult] at h
      cases h
      exact absurd rfl hafter
    | error e =>
      rw [calls_of_error hresult] at h
      cases h
      exact ⟨rfl, Nat.sub_le _ _, rfl⟩
  | cons b before ih =>
    intro s h
    cases hresult : s.call.result with
    | ok ss =>
      rw [calls_of_ok hresult] at h
      simp at h
    | error e =>
      rw [calls_of_error hresult] at h
      -- the stream that a failed call leaves has the same tokens
      have hlater := ih (List.cons.inj h).2
      exact hlater

end Stream

end Token

namespace Script

open Token (Stream commentOpen)

/-! ## The front of a list up to an assignment -/

/-- The tokens up to an index, and the words behind it. -/
def through (ts : List PlacedToken) (i : Nat) : List PlacedToken :=
  ts.take (i + 1) ++ (ts.drop (i + 1)).takeWhile PlacedToken.isWord

/-- The tokens up to an index with the words behind it, and what follows these, make up all
tokens. -/
theorem through_append (ts : List PlacedToken) (i : Nat) :
    through ts i ++ afterWords (ts.drop (i + 1)) = ts := by
  rw [through, afterWords, List.append_assoc, List.takeWhile_append_dropWhile,
    List.take_append_drop]

/-- Behind the words that follow an index stand the tokens behind those words. -/
theorem drop_through (ts : List PlacedToken) (i : Nat) :
    ts.drop (through ts i).length = afterWords (ts.drop (i + 1)) := by
  have hleft : (through ts i ++ afterWords (ts.drop (i + 1))).drop (through ts i).length =
      afterWords (ts.drop (i + 1)) := List.drop_left
  rwa [through_append] at hleft

namespace BadSet

variable {ts : List PlacedToken} {i : Nat} {t : PlacedToken} (h : BadSet ts i t)
include h

theorem lt_length : i < ts.length :=
  (List.getElem?_eq_some_iff.1 h.get).1

theorem length_through :
    (through ts i).length = i + 1 + ((ts.drop (i + 1)).takeWhile PlacedToken.isWord).length := by
  rw [through, List.length_append, List.length_take, Nat.min_eq_left h.lt_length]

/-- An assignment and its words open no comment. -/
theorem commentOpen_through : commentOpen (through ts i) = false := by
  have htake : ts.take (i + 1) = ts.take i ++ [t] := by
    rw [List.take_add_one, h.get]
    rfl
  have hwords : commentOpen ((ts.drop (i + 1)).takeWhile PlacedToken.isWord) = false := by
    apply Token.commentOpen_eq_false
    intro w hw hrem
    have hword := PlacedToken.isWord_iff.1 (isWord_of_mem_takeWhile hw)
    rw [hrem] at hword
    cases hword
  have hhead : commentOpen (ts.take (i + 1)) = false := by
    rw [htake, Token.commentOpen_concat, h.noComment, h.isSet]
    simp
  rw [through, Token.commentOpen_append, hwords, hhead]
  rfl

/-- Behind an assignment at fault and its words the same assignments are at fault as if the list
began there. -/
theorem behind_iff {j : Nat} {u : PlacedToken} :
    BadSet ts ((through ts i).length + j) u ↔ BadSet (afterWords (ts.drop (i + 1))) j u := by
  have happ : Outside WithoutEquals (through ts i ++ afterWords (ts.drop (i + 1)))
      ((through ts i).length + j) u ↔ Outside WithoutEquals (afterWords (ts.drop (i + 1))) j u :=
    outside_append_iff (Or.inl h.commentOpen_through) WithoutEquals.endsLine
  rw [through_append] at happ
  rw [badSet_iff_outside, badSet_iff_outside]
  exact happ

end BadSet

/-- Among the words behind an index no assignment is at fault. -/
theorem BadSet.le_of_lt_through {ts : List PlacedToken} {i k : Nat} {u : PlacedToken}
    (h : BadSet ts k u) (hlt : k < (through ts i).length) : k ≤ i := by
  by_contra hle
  have hlen : (ts.take (i + 1)).length ≤ k :=
    Nat.le_trans (List.length_take_le _ _) (Nat.lt_of_not_le hle)
  have hget := h.get
  rw [← through_append ts i, List.getElem?_append_left hlt, through,
    List.getElem?_append_right hlen] at hget
  have hword := PlacedToken.isWord_iff.1 (isWord_of_mem_takeWhile (List.mem_of_getElem? hget))
  have hset := h.isSet
  rw [hword] at hset
  cases hset

/-! ## What the calls report -/

/-- A call reports the assignment at an index, and leaves the stream behind its words. -/
def Reports (ts : List PlacedToken) (i : Nat) (c : Stream.Call) : Prop :=
  ∃ t, BadSet ts i t ∧ c.result = .error (.invalidAssignment t.line t.column) ∧
    c.stream = ⟨ts, i + 1 + ((ts.drop (i + 1)).takeWhile PlacedToken.isWord).length⟩

section

variable {ts : List PlacedToken} {i : Nat} {t : PlacedToken}

/-- What a report on the tokens behind an assignment at fault says is so in the whole list. -/
theorem Reports.behind (h : BadSet ts i t) {j : Nat} {c : Stream.Call}
    (hc : Reports (afterWords (ts.drop (i + 1))) j c) :
    Reports ts ((through ts i).length + j) (c.behind (through ts i)) := by
  obtain ⟨u, hu, hresult, hstream⟩ := hc
  have hdrop : ts.drop ((through ts i).length + j + 1) =
      (afterWords (ts.drop (i + 1))).drop (j + 1) := by
    rw [Nat.add_assoc, ← List.drop_drop, drop_through]
  refine ⟨u, h.behind_iff.2 hu, hresult, ?_⟩
  rw [Stream.Call.behind, hstream, hdrop]
  simp only [Stream.behind, through_append, Nat.add_assoc]

/-- The assignments at fault are the first one and those behind its words. -/
theorem FirstBadSet.enumerates (h : FirstBadSet ts i t) {indices : List Nat}
    (hlater : Enumerates (fun j => ∃ u, BadSet (afterWords (ts.drop (i + 1))) j u) indices) :
    Enumerates (fun k => ∃ u, BadSet ts k u)
      ([i] ++ indices.map ((through ts i).length + ·)) := by
  refine (Enumerates.singleton fun k => ?_).append hlater
    fun j => exists_congr fun u => h.1.behind_iff
  constructor
  · rintro ⟨hk, u, hu⟩
    exact Nat.le_antisymm (hu.le_of_lt_through hk) (Nat.le_of_not_lt fun hki => h.2 k hki u hu)
  · rintro rfl
    have hlength := h.1.length_through
    exact ⟨by omega, t, h.1⟩

/-- A call that fails reports the first assignment at fault, and the calls after it are those on the
tokens behind its words. -/
theorem FirstBadSet.calls_eq (h : FirstBadSet ts i t)
    (hresult : (read ts).result = .error (.invalidAssignment t.line t.column))
    (hrest : (read ts).rest = afterWords (ts.drop (i + 1))) :
    ∃ c, Reports ts i c ∧ (Stream.ofList ts).calls =
      c :: (Stream.ofList (afterWords (ts.drop (i + 1)))).calls.map (·.behind (through ts i)) := by
  have hcall : (Stream.ofList ts).call.result = .error (.invalidAssignment t.line t.column) :=
    hresult
  have hlen := congrArg List.length (through_append ts i)
  rw [List.length_append] at hlen
  have hleft : (Stream.ofList ts).call.stream = ⟨ts, (through ts i).length⟩ := by
    show (⟨ts, ts.length - (read ts).rest.length⟩ : Stream) = _
    rw [hrest, ← hlen, Nat.add_sub_cancel]
  refine ⟨(Stream.ofList ts).call, ⟨t, h.1, hcall, ?_⟩, ?_⟩
  · rw [hleft, h.1.length_through]
  · rw [Stream.calls_of_error hcall, hleft, ← Stream.calls_behind, Stream.behind_ofList,
      through_append]

end

/-- The calls on one stream report the assignments at fault in turn. -/
theorem exists_reports : ∀ ts : List PlacedToken, ∃ failures last indices,
    (Stream.ofList ts).calls = failures ++ [last] ∧ (∃ ss, last.result = .ok ss) ∧
      Enumerates (fun i => ∃ t, BadSet ts i t) indices ∧
        List.Forall₂ (Reports ts) indices failures := by
  intro ts
  cases read_ends ts with
  | @whole ss hnone hresult =>
    refine ⟨[], (Stream.ofList ts).call, [], Stream.calls_of_ok hresult, ⟨ss, hresult⟩, ?_, .nil⟩
    exact .nil fun i ⟨t, ht⟩ => hnone i t ht
  | @fault i t hbad hresult hrest =>
    obtain ⟨c, hc, hcalls⟩ := hbad.calls_eq hresult hrest
    -- the words behind the assignment are dropped with it, so fewer tokens are left
    have hlt : (afterWords (ts.drop (i + 1))).length < ts.length := by
      have hlen := congrArg List.length (through_append ts i)
      have hlength := hbad.1.length_through
      rw [List.length_append] at hlen
      omega
    obtain ⟨failures, last, indices, hlater, hok, hindices, hreports⟩ :=
      exists_reports (afterWords (ts.drop (i + 1)))
    refine ⟨c :: failures.map (·.behind (through ts i)), last.behind (through ts i), _, ?_, hok,
      hbad.enumerates hindices, .cons hc ?_⟩
    · rw [hcalls, hlater, List.map_append, List.cons_append]
      rfl
    · refine List.forall₂_map_left_iff.2 (List.forall₂_map_right_iff.2 ?_)
      exact hreports.imp fun j c' hc' => hc'.behind hbad.1
  termination_by ts => ts.length

/-- **Every assignment at fault is reported once, by the calls on one stream.** The calls come to an
end: all but the last one fail, and they report, in order and each once, the assignments of the
whole list that cannot be read. A failed call leaves the stream behind the assignment and its words.
The calls after it are those on the tokens that are left, with the same results and the same
notes. -/
theorem calls_report (ts : List PlacedToken) :
    (∃ failures last indices, (Stream.ofList ts).calls = failures ++ [last] ∧
      (∃ ss, last.result = .ok ss) ∧
      Enumerates (fun i => ∃ t, BadSet ts i t) indices ∧
      List.Forall₂ (Reports ts) indices failures) ∧
    ∀ before c after, (Stream.ofList ts).calls = before ++ c :: after → after ≠ [] →
      after = (Stream.ofList (ts.drop c.stream.position)).calls.map
        (·.behind (ts.take c.stream.position)) := by
  refine ⟨exists_reports ts, fun before c after hcalls hafter => ?_⟩
  obtain ⟨htokens, hposition, hlater⟩ := Stream.calls_eq_append hafter hcalls
  have hstream : c.stream = ⟨ts, c.stream.position⟩ := by
    cases c with
    | mk result stream log =>
      cases htokens
      rfl
  have hback : (Stream.ofList (ts.drop c.stream.position)).behind (ts.take c.stream.position) =
      ⟨ts, c.stream.position⟩ := Stream.behind_ofList_drop hposition
  rw [← Stream.calls_behind, hback, ← hstream]
  exact hlater

/-- Three calls: the first assignment takes its word, the comment hides the second one, and the last
call reads what is behind the third. -/
example :
    let ts : List PlacedToken :=
      [⟨⟨.set, "set".text⟩, false, 1, 1⟩, ⟨⟨.word, ['a']⟩, false, 1, 5⟩,
        ⟨⟨.rem, "rem".text⟩, false, 1, 7⟩, ⟨⟨.set, "set".text⟩, false, 1, 11⟩,
        ⟨⟨.newLine, ['\n']⟩, false, 1, 14⟩, ⟨⟨.set, "set".text⟩, false, 2, 1⟩,
        ⟨⟨.pipe, ['|']⟩, false, 2, 5⟩]
    (Stream.ofList ts).calls.map (fun c => (c.result, c.stream.position)) =
      [(.error (.invalidAssignment (some 1) (some 1)), 2),
        (.error (.invalidAssignment (some 2) (some 1)), 6),
        (.ok [.unknown ⟨⟨.pipe, ['|']⟩, false, 2, 5⟩], 7)] := by
  decide +kernel

end Script

end BatchScript
