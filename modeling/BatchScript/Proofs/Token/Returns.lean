import BatchScript.Proofs.Text.Lines
import BatchScript.Proofs.Token.LineBreak
import BatchScript.Proofs.Token.Lookahead

/-!
# Carriage returns in front of line breaks

A carriage return in front of a line break is a blank at the end of its line. A blank there is
skipped if the line leaves nothing open. Behind an open quote or a caret it is one more character of
the last word, so the tokens of the line hold one character more (`Scans.concat_of_open`). A text
has the same tokens with carriage returns as without exactly where no line that a line break ends
leaves anything open.

> `Scans.concat_of_closed`, `Scans.concat_of_open`: a blank at the end of a line;
> `withReturns_alike_iff`: carriage returns in front of all line breaks.
-/

namespace BatchScript

namespace Text

/-- A text with a carriage return in front of every line break. -/
def withReturns (t : Text) : Text :=
  t.flatMap fun c => if c = char '\n' then ['\r', '\n'] else [c]

theorem withReturns_of_not_mem {t : Text} (h : char '\n' ∉ t) : t.withReturns = t := by
  induction t with
  | nil => rfl
  | cons c cs ih =>
    rw [List.mem_cons, not_or] at h
    rw [withReturns, List.flatMap_cons, ← withReturns, ih h.2, if_neg (Ne.symm h.1)]
    rfl

/-- A line gets its carriage return, and the text behind its line break those of its own. -/
theorem withReturns_append_newLine {l : Text} (h : char '\n' ∉ l) (t : Text) :
    (l ++ char '\n' :: t).withReturns = l ++ [char '\r'] ++ char '\n' :: t.withReturns := by
  rw [withReturns, List.flatMap_append, ← withReturns, withReturns_of_not_mem h,
    List.flatMap_cons, if_pos rfl, List.append_assoc]
  rfl

end Text

namespace Token

namespace Word

/-- Where a word leaves something open at the end of a text, a character behind it belongs to it. -/
theorem read_concat_of_open {d : CodePoint} (hd : d ≠ '\n') : ∀ (quoted : Bool) (t : Text),
    isClosed quoted t = false → (read quoted t).rest = [] →
      read quoted (t ++ [d]) = ⟨t ++ [d], (read quoted t).value ++ [d], []⟩
  | quoted, [], hopen, _ => by
    obtain rfl : quoted = true := by simpa [isClosed] using hopen
    rw [List.nil_append, read_quoted hd, read_nil, read_nil]
    rfl
  | true, c :: cs, hopen, hrest => by
    by_cases hline : c = '\n'
    · rw [hline, read_newLine] at hrest
      cases hrest
    · rw [isClosed_quoted] at hopen
      rw [read_quoted hline] at hrest ⊢
      rw [List.cons_append, read_quoted hline, read_concat_of_open hd _ cs hopen hrest]
      rfl
  | false, c :: cs, hopen, hrest => by
    -- outside of quotes a caret may be the last character of all
    rcases char_cases c with rfl | hend | rfl | hplain
    · rw [read_newLine] at hrest
      cases hrest
    · rw [read_end hend] at hrest
      cases hrest
    · cases cs with
      | nil =>
        rw [List.singleton_append, read_caret hd, read_nil, read_caret_nil]
        rfl
      | cons e es =>
        by_cases hline : e = '\n'
        · rw [hline, read_caret_newLine] at hrest
          cases hrest
        · rw [isClosed_caret] at hopen
          rw [read_caret hline] at hrest ⊢
          rw [List.cons_append, List.cons_append, read_caret hline,
            read_concat_of_open hd _ es hopen hrest]
          rfl
    · rw [isClosed_own (ne_caret_of_isPlain hplain)] at hopen
      rw [read_plain hplain] at hrest ⊢
      rw [List.cons_append, read_plain hplain, read_concat_of_open hd _ cs hopen hrest]
      rfl

theorem isClosed_blank {c : CodePoint} (hc : Text.isBlank c = true) (cs : Text) :
    isClosed false (c :: cs) = isClosed false cs := by
  simp only [Text.isBlank, Bool.or_eq_true, beq_iff_eq] at hc
  rcases hc with (rfl | rfl) | rfl <;> exact isClosed_own (by decide) cs

end Word

/-! ## The end of a line -/

theorem ne_newLine_of_isBlank {c : CodePoint} (hc : Text.isBlank c = true) : c ≠ '\n' := by
  rintro rfl
  cases hc

namespace Lexeme

variable {m : Mode} {t : Text} {l : Lexeme}

theorem not_mem_rest (h : read? m t = some l) (hline : char '\n' ∉ t) : char '\n' ∉ l.rest := by
  intro hmem
  rw [(read?_eq_some h).1] at hline
  exact hline (List.mem_append_right _ hmem)

/-- What is left behind a lexeme is closed if the whole is. -/
theorem isClosed_rest (h : read? m t = some l) (hline : char '\n' ∉ t) (hrest : l.rest ≠ []) :
    Word.isClosed false t = Word.isClosed false l.rest := by
  obtain ⟨happ, -⟩ := read?_eq_some h
  obtain ⟨c, cs, hcs⟩ := List.exists_cons_of_ne_nil hrest
  have hc : c ≠ '\n' := by
    rintro rfl
    exact hline (by rw [happ, hcs]; exact List.mem_append_right _ List.mem_cons_self)
  have hclosed := Word.isClosed_append (u := l.rest) (isClosed_raw h hcs hc)
  rwa [← happ] at hclosed

/-- A blank makes no handle. -/
theorem handle?_concat_eq_none {d : CodePoint} (hd : Text.isBlank d = true)
    (h : handle? m t = none) : handle? m (t ++ [d]) = none := by
  rw [handle?_eq_none_iff] at h ⊢
  rcases t with _ | ⟨c, _ | ⟨e, es⟩⟩
  · intro e _ hone
    cases hone
  · intro e _ hone
    cases hone
    exact (other_of_isBlank hd).2.1
  · exact h

/-- A handle that leaves something open takes a character behind it. -/
theorem handle?_concat_of_open {d : CodePoint} (hline : d ≠ '\n') (h : handle? m t = some l)
    (hopen : Word.isClosed false t = false) (hrest : l.rest = []) :
    ∃ l', handle? m (t ++ [d]) = some l' ∧ l'.rest = [] ∧
      l'.token.value = l.token.value ++ [d] := by
  unfold handle? at h
  split at h
  · next e es =>
    split at h
    · next he =>
      cases h
      rw [Word.isClosed_own (by decide)] at hopen
      have hread := Word.read_concat_of_open hline false (e :: es) hopen hrest
      rw [List.cons_append] at hread
      rw [List.cons_append, List.cons_append, handle?, if_pos he, hread]
      exact ⟨_, rfl, rfl, rfl⟩
    · cases h
  · cases h

/-- A word that leaves something open takes a blank behind it, and an operator leaves nothing
open. -/
theorem operatorOrWord?_concat_of_open {d : CodePoint} (hd : Text.isBlank d = true)
    (h : operatorOrWord? m t = some l) (hopen : Word.isClosed false t = false)
    (hrest : l.rest = []) :
    ∃ l', operatorOrWord? m (t ++ [d]) = some l' ∧ l'.rest = [] ∧
      l'.token.value = l.token.value ++ [d] := by
  unfold operatorOrWord? at h
  split at h
  · next kind rest hop =>
    cases h
    obtain ⟨hk, rfl, -⟩ := operator?_eq_some_iff.1 hop
    -- the operator would be all of the text, which then leaves nothing open
    have hclosed := ofOperator_isClosed m rest hk
    obtain rfl : rest = [] := hrest
    rw [List.append_nil] at hopen
    rw [show (ofOperator m kind []).raw = kind.fixedText from rfl, hopen] at hclosed
    cases hclosed
  · next hop =>
    unfold word? at h
    split at h
    · cases h
    · cases h
      have hread :=
        Word.read_concat_of_open (ne_newLine_of_isBlank hd) false t hopen hrest
      obtain ⟨hchar, hdigit, -⟩ := other_of_isBlank hd
      have htwo : d ≠ '2' := by
        rintro rfl
        cases hdigit
      rw [operatorOrWord?, operator?_append hchar htwo, hop, Option.map_none]
      simp only [word?, hread]
      cases hv : ((Word.read false t).value ++ [d]).isEmpty with
      | true => simp at hv
      | false => exact ⟨_, rfl, rfl, rfl⟩

/-- Where the last lexeme leaves something open, a blank behind it belongs to it. -/
theorem read?_concat_of_open {d : CodePoint} (hd : Text.isBlank d = true) (h : read? m t = some l)
    (hopen : Word.isClosed false t = false) (hrest : l.rest = []) :
    ∃ l', read? m (t ++ [d]) = some l' ∧ l'.rest = [] ∧
      l'.token.value = l.token.value ++ [d] := by
  have hraw := (read?_eq_some h).1
  rw [hrest, List.append_nil] at hraw
  have hmark : (if m.atHead then mark? m t else none) = none →
      (if m.atHead then mark? m (t ++ [d]) else none) = none := by
    intro hnone
    rw [ite_eq_right_iff] at hnone ⊢
    intro hm
    rw [mark?_append (other_of_isBlank hd).2.2, hnone hm]
    rfl
  simp only [read?, Option.or_eq_some_iff, Option.or_eq_none_iff] at h
  rcases h with (h | ⟨hnone, h⟩) | ⟨⟨hnone, hhandle⟩, h⟩
  · -- a mark leaves nothing open
    split at h
    · rw [hraw, mark?_isClosed h] at hopen
      cases hopen
    · cases h
  · split at h
    · next hr =>
      obtain ⟨l', hl', hspec⟩ :=
        handle?_concat_of_open (ne_newLine_of_isBlank hd) h hopen hrest
      rw [read?, hmark hnone, if_pos hr, hl']
      exact ⟨l', rfl, hspec⟩
    · cases h
  · have hhandle' : (if m.afterRedirection then handle? m (t ++ [d]) else none) = none := by
      rw [ite_eq_right_iff] at hhandle ⊢
      exact fun hr => handle?_concat_eq_none hd (hhandle hr)
    obtain ⟨l', hl', hspec⟩ := operatorOrWord?_concat_of_open hd h hopen hrest
    rw [read?, hmark hnone, hhandle', hl']
    exact ⟨l', rfl, hspec⟩

/-- A caret in front of a blank protects it. -/
theorem read?_caret_blank {d : CodePoint} (hd : Text.isBlank d = true) (m : Mode) :
    ∃ l, read? m ['^', d] = some l ∧ l.rest = [] ∧ l.token.value = [d] := by
  have hline := ne_newLine_of_isBlank hd
  have hread : Word.read false ['^', d] = ⟨['^', d], [d], []⟩ := by
    rw [Word.read_caret hline, Word.read_nil]
    rfl
  have hmark : mark? m ['^', d] = none := by simp [mark?]
  have hhandle : handle? m ['^', d] = none := by simp [handle?]
  have hop : operator? ['^', d] = none := by simp [operator?]
  refine ⟨ofWord m ⟨['^', d], [d], []⟩, ?_, rfl, rfl⟩
  rw [read?, hmark, hhandle, ite_self, ite_self, operatorOrWord?, hop]
  simp only [word?, hread]
  rfl

end Lexeme

/-- A blank at the end of a line that leaves nothing open is skipped. -/
theorem Scans.concat_of_closed {m e : Mode} {p : Place} {t : Text} {ts : List PlacedToken}
    {d : CodePoint} (hd : Text.isBlank d = true) (h : Scans m p t ts e) : char '\n' ∉ t →
      Word.isClosed false t = true → Scans m p (t ++ [d]) ts e := by
  induction h with
  | nil => exact fun _ _ => .blank hd .nil
  | @blank m e p c cs ts hc _ ih =>
    intro hline hclosed
    rw [List.mem_cons, not_or] at hline
    rw [Word.isClosed_blank hc] at hclosed
    exact .blank hc (ih hline.2 hclosed)
  | newLine =>
    intro hline _
    exact absurd List.mem_cons_self hline
  | hide hm _ ih =>
    intro hline hclosed
    rw [List.mem_cons, not_or] at hline
    rw [Word.isClosed_own (by decide)] at hclosed
    exact .hide hm (ih hline.2 hclosed)
  | @token m e p c cs l ts hc hl hscan ih =>
    intro hline hclosed
    have hl' := Lexeme.read?_append m (Or.inr ⟨hd, hclosed⟩) []
    rw [hl] at hl'
    refine .token (l := l.followedBy [d]) hc hl' ?_
    by_cases hrest : l.rest = []
    · exact ih (by rw [hrest]; exact List.not_mem_nil) (by rw [hrest]; rfl)
    · rw [Lexeme.isClosed_rest hl hline hrest] at hclosed
      exact ih (Lexeme.not_mem_rest hl hline) hclosed
  | @skip m e p c cs ts hc hl _ _ =>
    intro hline hclosed
    obtain ⟨rfl, hnext⟩ := Lexeme.eq_caret_of_read?_eq_none hc.1 hc.2.1 hl
    -- nothing is behind the caret on the line
    rcases hnext with hnext | hnext
    · rw [List.head?_eq_none_iff.1 hnext] at hclosed
      cases hclosed
    · obtain ⟨ds, rfl⟩ := List.head?_eq_some_iff.1 hnext
      exact absurd (List.mem_cons_of_mem _ List.mem_cons_self) hline

/-- How many characters the values of tokens hold. -/
def characters (ts : List PlacedToken) : Nat :=
  (ts.flatMap (·.value)).length

theorem characters_cons (t : PlacedToken) (ts : List PlacedToken) :
    characters (t :: ts) = t.value.length + characters ts := by
  rw [characters, List.flatMap_cons, List.length_append, ← characters]

/-- A blank at the end of a line that leaves something open is one more character of its tokens. -/
theorem Scans.concat_of_open {m e : Mode} {p : Place} {t : Text} {ts : List PlacedToken}
    {d : CodePoint} (hd : Text.isBlank d = true) (h : Scans m p t ts e) : char '\n' ∉ t →
      Word.isClosed false t = false →
        ∃ us e', Scans m p (t ++ [d]) us e' ∧ characters us = characters ts + 1 := by
  induction h with
  | nil =>
    intro _ hopen
    cases hopen
  | @blank m e p c cs ts hc _ ih =>
    intro hline hopen
    rw [List.mem_cons, not_or] at hline
    rw [Word.isClosed_blank hc] at hopen
    obtain ⟨us, e', hus, hcount⟩ := ih hline.2 hopen
    exact ⟨us, e', .blank hc hus, hcount⟩
  | newLine =>
    intro hline _
    exact absurd List.mem_cons_self hline
  | hide hm _ ih =>
    intro hline hopen
    rw [List.mem_cons, not_or] at hline
    rw [Word.isClosed_own (by decide)] at hopen
    obtain ⟨us, e', hus, hcount⟩ := ih hline.2 hopen
    exact ⟨us, e', .hide hm hus, hcount⟩
  | @token m e p c cs l ts hc hl hscan ih =>
    intro hline hopen
    by_cases hrest : l.rest = []
    · -- the last token
      rw [hrest] at hscan
      cases hscan
      obtain ⟨l', hl', hrest', hvalue⟩ := Lexeme.read?_concat_of_open hd hl hopen hrest
      refine ⟨[placed l'.token m p], l'.mode, .token hc hl' (hrest' ▸ .nil), ?_⟩
      simp [characters, placed, hvalue]
    · have hopen' := hopen
      rw [Lexeme.isClosed_rest hl hline hrest] at hopen'
      obtain ⟨us, e', hus, hcount⟩ := ih (Lexeme.not_mem_rest hl hline) hopen'
      obtain ⟨f, fs, hfs⟩ := List.exists_cons_of_ne_nil hrest
      have hl' := Lexeme.read?_raw_append hl (u := l.rest ++ [d]) (Or.inr (by rw [hfs]; rfl))
      rw [← List.append_assoc, ← (Lexeme.read?_eq_some hl).1] at hl'
      refine ⟨_, e', .token (l := { l with rest := l.rest ++ [d] }) hc hl' hus, ?_⟩
      rw [characters_cons, characters_cons, hcount, Nat.add_assoc]
  | @skip m e p c cs ts hc hl hscan _ =>
    intro hline _
    obtain ⟨rfl, hnext⟩ := Lexeme.eq_caret_of_read?_eq_none hc.1 hc.2.1 hl
    rcases hnext with hnext | hnext
    · -- a caret at the end of the line now protects the blank
      obtain rfl := List.head?_eq_none_iff.1 hnext
      cases hscan
      obtain ⟨l, hl', hrest, hvalue⟩ := Lexeme.read?_caret_blank hd m
      refine ⟨[placed l.token m p], l.mode, .token hc hl' (hrest ▸ .nil), ?_⟩
      simp [characters, placed, hvalue]
    · obtain ⟨ds, rfl⟩ := List.head?_eq_some_iff.1 hnext
      exact absurd (List.mem_cons_of_mem _ List.mem_cons_self) hline

/-! ## All lines -/

/-- Whether tokens are the same in order, with the same flags and on the same lines. -/
def AlikeByLine (ts us : List PlacedToken) : Prop :=
  List.Forall₂ (MovedBy fun p q => p.line = q.line) ts us

namespace AlikeByLine

theorem refl (ts : List PlacedToken) : AlikeByLine ts ts :=
  List.forall₂_same.2 fun _ _ => ⟨rfl, rfl, rfl⟩

/-- Tokens alike by line hold as many characters. -/
theorem characters_eq {ts us : List PlacedToken} (h : AlikeByLine ts us) :
    characters ts = characters us := by
  induction h with
  | nil => rfl
  | @cons t u ts us htu _ ih =>
    have hvalue : t.value = u.value := congrArg Token.value htu.token
    rw [characters_cons, characters_cons, hvalue, ih]

/-- Tokens are alike by line exactly when they are so further down. -/
theorem down_iff {ts us : List PlacedToken} (lines : Int) :
    AlikeByLine (ts.map (·.down lines)) (us.map (·.down lines)) ↔ AlikeByLine ts us := by
  have hdown : ∀ t u : PlacedToken, MovedBy (fun p q => p.line = q.line) (t.down lines)
      (u.down lines) ↔ MovedBy (fun p q => p.line = q.line) t u := by
    intro t u
    refine ⟨fun ⟨htoken, hflag, hline⟩ => ⟨htoken, hflag, ?_⟩,
      fun ⟨htoken, hflag, hline⟩ => ⟨htoken, hflag, congrArg (· + lines) hline⟩⟩
    exact (Int.add_left_inj lines).1 hline
  rw [AlikeByLine, List.forall₂_map_left_iff, List.forall₂_map_right_iff]
  simp only [hdown]
  rfl

/-- Tokens are alike in a line, its line break and what follows. -/
theorem line_iff {b b' : PlacedToken} {rest rest' : List PlacedToken} (hb : b.endsLine = true)
    (hb' : b'.endsLine = true) : ∀ {line line' : List PlacedToken},
      (∀ t ∈ line, t.endsLine = false) → (∀ t ∈ line', t.endsLine = false) →
        (AlikeByLine (line ++ b :: rest) (line' ++ b' :: rest') ↔
          AlikeByLine line line' ∧ MovedBy (fun p q => p.line = q.line) b b' ∧
            AlikeByLine rest rest') := by
  have hends : ∀ {t u : PlacedToken}, MovedBy (fun p q => p.line = q.line) t u →
      t.endsLine = u.endsLine := by
    intro t u htu
    rw [PlacedToken.endsLine, htu.token, ← PlacedToken.endsLine]
  intro line
  induction line with
  | nil =>
    intro line' _ hline'
    cases line' with
    | nil =>
      rw [List.nil_append, List.nil_append, AlikeByLine, List.forall₂_cons]
      exact (and_iff_right List.Forall₂.nil).symm
    | cons u line' =>
      -- one line ends here and the other goes on, so the tokens beside each other differ
      refine iff_of_false (fun h => ?_) fun h => by cases h.1
      cases h with
      | cons hbu _ =>
        rw [hends hbu, hline' u List.mem_cons_self] at hb
        cases hb
  | cons t line ih =>
    intro line' hline hline'
    have ht := hline t List.mem_cons_self
    cases line' with
    | nil =>
      refine iff_of_false (fun h => ?_) fun h => by cases h.1
      cases h with
      | cons htb' _ =>
        rw [hends htb', hb'] at ht
        cases ht
    | cons u line' =>
      have hrec := ih (fun v hv => hline v (List.mem_cons_of_mem t hv))
        (fun v hv => hline' v (List.mem_cons_of_mem u hv))
      rw [List.cons_append, List.cons_append, AlikeByLine, List.forall₂_cons, AlikeByLine,
        List.forall₂_cons, and_assoc]
      exact and_congr_right fun _ => hrec

end AlikeByLine

/-- The first line and the rest of a text are told apart: they are alike with carriage returns where
the line leaves nothing open and the rest is alike. -/
theorem withReturns_alike_iff_of_line {l : Text} (hl : char '\n' ∉ l) (rest : Text) :
    AlikeByLine (ofText (l ++ char '\n' :: rest)) (ofText (l ++ char '\n' :: rest).withReturns) ↔
      Word.isClosed false l = true ∧ AlikeByLine (ofText rest) (ofText rest.withReturns) := by
  have hl' : char '\n' ∉ l ++ [char '\r'] := by simp [hl]
  have hwithin : ∀ {k : Text}, char '\n' ∉ k → ∀ t ∈ ofText k, t.endsLine = false :=
    fun hk t ht => beq_eq_false_iff_ne.2 (ofText_within_line hk t ht).1.1
  obtain ⟨e, hscan⟩ := exists_scans_ofText l
  obtain ⟨e', hscan'⟩ := exists_scans_ofText (l ++ [char '\r'])
  rw [Text.withReturns_append_newLine hl, hscan.ofText_append_newLine,
    hscan'.ofText_append_newLine, List.count_eq_zero_of_not_mem hl,
    List.count_eq_zero_of_not_mem hl',
    AlikeByLine.line_iff rfl rfl (hwithin hl) (hwithin hl'), AlikeByLine.down_iff]
  cases hclosed : Word.isClosed false l with
  | true =>
    have hsame := hscan.concat_of_closed (d := '\r') rfl hl hclosed
    have hdrain := hsame.drain_eq
    rw [hscan'.drain_eq] at hdrain
    obtain ⟨hts, hmode⟩ := Prod.mk.inj hdrain
    obtain rfl : e' = e := congrArg Scanner.mode hmode
    have hbreak : MovedBy (fun p q => p.line = q.line)
        (placed (.ofKind .newLine) e' (Place.start.afterText l))
        (placed (.ofKind .newLine) e' (Place.start.afterText (l ++ [char '\r']))) := by
      refine ⟨rfl, rfl, ?_⟩
      rw [Place.afterText_append]
      rfl
    rw [hts]
    exact ⟨fun ⟨_, _, h⟩ => ⟨rfl, h⟩, fun ⟨_, h⟩ => ⟨.refl _, hbreak, h⟩⟩
  | false =>
    -- the last word of the line is longer by the carriage return
    obtain ⟨us, e'', hus, hcount⟩ := hscan.concat_of_open (d := '\r') rfl hl hclosed
    refine iff_of_false (fun h => ?_) fun h => by cases h.1
    have hchars := h.1.characters_eq
    rw [hus.ofText_eq, hcount] at hchars
    omega

/-- **Carriage returns in front of all line breaks change no token exactly where no line leaves
anything open.** The last line counts only if a line break ends it. -/
theorem withReturns_alike_iff (source : Text) :
    AlikeByLine (ofText source) (ofText source.withReturns) ↔
      ∀ l ∈ (source.splitOn (char '\n')).dropLast, Word.isClosed false l = true := by
  rcases Text.line_cases source with hline | ⟨l, rest, hsource, hl⟩
  · rw [Text.withReturns_of_not_mem hline, List.splitOn_eq_singleton hline]
    exact iff_of_true (.refl _) (fun l h => by cases h)
  · have hlen : rest.length < source.length := by
      rw [hsource, List.length_append, List.length_cons]
      omega
    rw [hsource, withReturns_alike_iff_of_line hl, withReturns_alike_iff rest,
      List.splitOn_append_cons_self_of_not_mem hl,
      List.dropLast_cons_of_ne_nil (List.splitOn_ne_nil (char '\n') rest), List.forall_mem_cons]
  termination_by source.length

/-- A quote that is open at the end of a line takes the carriage return. -/
theorem not_alike_withReturns_of_open_quote :
    ofText (Text.withReturns "echo \"a\n".text) =
        [⟨⟨.echo, "echo".text⟩, false, 1, 1⟩, ⟨⟨.word, "\"a\r".text⟩, false, 1, 6⟩,
          ⟨⟨.newLine, "\n".text⟩, false, 1, 9⟩] ∧
      ¬AlikeByLine (ofText "echo \"a\n".text)
        (ofText (Text.withReturns "echo \"a\n".text)) := by
  refine ⟨by decide +kernel, fun h => ?_⟩
  have hcount : characters (ofText "echo \"a\n".text) ≠
      characters (ofText (Text.withReturns "echo \"a\n".text)) := by decide +kernel
  exact hcount h.characters_eq

end Token

end BatchScript
