import Mathlib.Data.List.Chain
import BatchScript.Proofs.Script.Assignments
import BatchScript.Proofs.Token.Respelled

/-!
# Statements that are written and scanned again

A statement that is made of tokens of a line is written as pieces, and the pieces are scanned as
tokens that make up the statement again. These need not be the same tokens: an overridden
redirection is gone, a comment starts with another mark, the operands of an assignment are cut into
other words. What stands behind the statement on its line is a parameter of every lemma here, as
text and as tokens, and what the lemmas say of the mode lets the argument go on with it.

> `MadeOf.rewritten`: every statement of a line is written as pieces that make it up.
-/

namespace BatchScript

open Token

/-- A statement whose pieces, with more text behind them, are scanned as tokens that make up a
statement alike, and leave a mode from which the rest of the line goes on. -/
def Statement.Rewritten (s : Statement) (m : Mode) (rest : List PlacedToken) (tail : Text) : Prop :=
  ∃ s' us m', bare m (Text.spaced (s.pieces.filter (!·.isEmpty)) ++ tail) = us ++ bare m' tail ∧
    s'.MadeOf us ∧ s.Alike PlacedToken.SameSpelling s' ∧ m'.Sound ∧ Line m' rest

theorem filter_eq_of_ne_nil {ps : List Text} (h : ∀ p ∈ ps, p ≠ []) :
    ps.filter (!·.isEmpty) = ps := by
  rw [List.filter_eq_self]
  intro p hp
  simpa using h p hp

theorem commandName_ne_nil {name : Text} (h : name ≠ []) (invisible : Bool) :
    commandName name invisible ≠ [] := by
  cases invisible with
  | false => exact h
  | true => exact List.cons_ne_nil (char '@') name

theorem Redirection.pieces_ne_nil (r : Option Redirection) : ∀ p ∈ pieces r, p ≠ [] := by
  cases r with
  | none => simp [pieces]
  | some r =>
    have hspelling : r.kind.spelling ≠ [] := by cases r.kind <;> exact List.cons_ne_nil _ _
    intro p hp
    rw [pieces, List.mem_singleton] at hp
    rw [hp, text]
    split <;> simp [hspelling]

/-! ## Words -/

theorem spelling_of_isWord {w : PlacedToken} (h : w.isWord = true) : w.spelling = w.value := by
  rw [Token.spelling, PlacedToken.isWord_iff.1 h]
  rfl

theorem map_spelling_words {words : List PlacedToken} (h : ∀ w ∈ words, w.isWord = true) :
    words.map (·.spelling) = words.map (·.value) :=
  List.map_congr_left fun w hw => spelling_of_isWord (h w hw)

/-- Words and tokens of the same spellings are words with the same texts. -/
theorem words_sameSpelling {words us : List PlacedToken}
    (h : List.Forall₂ PlacedToken.SameSpelling words us) (hwords : ∀ w ∈ words, w.isWord = true) :
    (∀ u ∈ us, u.isWord = true) ∧ us.map (·.value) = words.map (·.value) := by
  induction h with
  | nil => exact ⟨hwords, rfl⟩
  | @cons w u words us hwu _ ih =>
    obtain ⟨hus, hvalues⟩ := ih fun w' hw' => hwords w' (List.mem_cons_of_mem w hw')
    have hw : w.isWord = true := hwords w List.mem_cons_self
    have hu : u.isWord = true := by rwa [PlacedToken.isWord, ← hwu.kind]
    refine ⟨List.forall_mem_cons.2 ⟨hu, hus⟩, ?_⟩
    rw [List.map_cons, List.map_cons, hvalues, ← spelling_of_isWord hu, ← hwu.spelling,
      spelling_of_isWord hw]

/-- Every token of a line is spelled by something. -/
theorem Token.Line.spelling_ne_nil {m : Mode} {ts : List PlacedToken} (h : Line m ts) :
    ∀ t ∈ ts, t.spelling ≠ [] := by
  induction ts generalizing m with
  | nil => simp
  | cons t ts ih =>
    intro u hu
    rcases List.mem_cons.1 hu with rfl | hu
    · exact h.fits.spelling_ne_nil
    · exact ih h.rest u hu

/-- The bare words of a line hold no line break. -/
theorem Token.Line.withinLine {m : Mode} {ts : List PlacedToken} (h : Line m ts) :
    ∀ t ∈ ts, t.isWord = true → t.WithinLine := by
  induction ts generalizing m with
  | nil => simp
  | cons t ts ih =>
    intro u hu hword
    rcases List.mem_cons.1 hu with rfl | hu
    · exact h.fits.withinLine (PlacedToken.isWord_iff.1 hword)
    · exact ih h.rest u hu hword

/-- The words of a line hold something. -/
theorem value_ne_nil_of_line {m : Mode} {words rest : List PlacedToken}
    (hline : Line m (words ++ rest)) (hwords : ∀ w ∈ words, w.isWord = true) :
    ∀ p ∈ words.map (·.value), p ≠ [] := by
  rw [← map_spelling_words hwords]
  intro p hp
  obtain ⟨w, hw, rfl⟩ := List.mem_map.1 hp
  exact hline.spelling_ne_nil w (List.mem_append_left rest hw)

section

variable {rest : List PlacedToken} {tail : Text} (htail : Text.BehindPiece tail)
  (hnil : rest = [] → tail = [])
include htail hnil

/-- Words behind a keyword are scanned as words with the same texts. -/
theorem bare_words {m : Mode} {words : List PlacedToken} (hm : m.Sound) (hhead : m.atHead = false)
    (hr : m.afterRedirection = false) (hline : Line m (words ++ rest))
    (hwords : ∀ w ∈ words, w.isWord = true) :
    Line m rest ∧ ∃ us, (∀ u ∈ us, u.isWord = true) ∧ us.map (·.value) = words.map (·.value) ∧
      bare m (Text.spaced (words.map (·.value)) ++ tail) = us ++ bare m tail := by
  obtain ⟨us, hus, hsame⟩ := bare_spellings htail hnil hm hline
  have hrest := hline.rest_append
  rw [Mode.behindAll_words hhead hr hwords] at hrest
  rw [map_spelling_words hwords, Mode.behindAll_words hhead hr hwords] at hus
  obtain ⟨husword, hvalues⟩ := words_sameSpelling hsame hwords
  exact ⟨hrest, us, husword, hvalues, hus⟩

/-! ## Redirections -/

/-- A redirection is scanned as its two tokens, whether the target is a handle or not. -/
theorem bare_clause {m : Mode} {marker target : PlacedToken} {kind : Redirection.Kind}
    (hk : marker.kind = .redirect kind) (ht : target.isWord = true)
    (hline : Line m (marker :: target :: rest)) :
    bare m (char ' ' :: ((Redirection.mk kind target.value).text ++ tail)) =
      bareToken ⟨.redirect kind, kind.spelling⟩ m ::
        bareToken ⟨.word, target.value⟩ (m.behind (.redirect kind)) ::
          bare ((m.behind (.redirect kind)).behind .word) tail := by
  have htarget : target.kind = .word := PlacedToken.isWord_iff.1 ht
  have hop : Kind.redirect kind ∈ Kind.operators := by cases kind <;> decide
  have hrest := hline.rest
  rw [hk] at hrest
  have hword : bare (m.behind (.redirect kind)) (target.value ++ tail) =
      bareToken ⟨.word, target.value⟩ (m.behind (.redirect kind)) ::
        bare ((m.behind (.redirect kind)).behind .word) tail := by
    rw [← spelling_of_isWord ht, ← htarget]
    apply bare_spelling (Mode.sound_behind m _) hrest.fits htail
    exact fun hk hopen => hnil (hrest.closed hk hopen)
  rw [bare_space, Redirection.text]
  split
  · next hamp =>
    -- a handle stands next to its redirection, and its ampersand makes that no longer
    rw [List.append_assoc, ← hword]
    apply bare_operator hop
    intro c hc
    rw [List.head?_append, hamp] at hc
    cases hc
    exact ⟨by cases kind <;> decide, by decide⟩
  · rw [List.append_assoc, ← hword, List.cons_append,
      ← bare_space (m.behind (.redirect kind)) (target.value ++ tail)]
    exact bare_operator_piece hop (Text.behindPiece_space _)

/-- What clauses come to is scanned as a clause, or as nothing where there are none. -/
theorem bare_clauses {m : Mode} {r : Option Redirection} {clauses : List PlacedToken}
    (h : Redirection.MadeOf r clauses) (hhead : m.atHead = false)
    (hr : m.afterRedirection = false) : Line m (clauses ++ rest) →
      Line m rest ∧ ∃ us, Redirection.MadeOf r us ∧
        bare m (Text.spaced (Redirection.pieces r) ++ tail) = us ++ bare m tail := by
  induction h with
  | nil =>
    intro hline
    exact ⟨hline, [], .nil, rfl⟩
  | @last marker target kind hk ht =>
    intro hline
    have hword : target.kind = .word := PlacedToken.isWord_iff.1 ht
    have hrest := hline.rest.rest
    have hscan := bare_clause htail hnil hk ht hline
    rw [hk, hword, Mode.behind_clause hhead hr] at hrest
    rw [Mode.behind_clause hhead hr] at hscan
    have hmade := @Redirection.MadeOf.last (bareToken ⟨.redirect kind, kind.spelling⟩ m)
      (bareToken ⟨.word, target.value⟩ (m.behind (.redirect kind))) kind rfl rfl
    refine ⟨hrest, _, hmade, ?_⟩
    rw [Redirection.pieces, Text.spaced_cons, List.cons_append, List.append_assoc]
    exact hscan
  | @overridden marker target kind r ts hk ht _ ih =>
    intro hline
    -- the clause that is overridden is not written; the mode is the same behind it
    have hword : target.kind = .word := PlacedToken.isWord_iff.1 ht
    have hrest := hline.rest.rest
    rw [hk, hword, Mode.behind_clause hhead hr] at hrest
    exact ih hrest

/-! ## Statements of one token -/

/-- A token by itself, which is a statement or none. -/
theorem rewritten_token {m : Mode} {head : PlacedToken} (hm : m.Sound)
    (hline : Line m (head :: rest)) {s s' : Statement} (hpieces : s.pieces = [head.spelling])
    (hs : s'.MadeOf [respelled head.toToken m]) (halike : s.Alike PlacedToken.SameSpelling s') :
    s.Rewritten m rest tail := by
  refine ⟨s', _, m.behind head.kind, ?_, hs, halike, Mode.sound_behind m _, hline.rest⟩
  have hpiece : ∀ p ∈ [head.spelling], p ≠ [] := by simpa using hline.fits.spelling_ne_nil
  rw [hpieces, filter_eq_of_ne_nil hpiece, Text.spaced_cons, List.cons_append, bare_space,
    List.append_assoc]
  apply bare_spelling hm hline.fits htail
  exact fun hk hopen => hnil (hline.closed hk hopen)

end

/-! ## Commands -/

/-- A keyword, its flag, and what the statement writes behind them. -/
theorem rewritten_command {m : Mode} {head : PlacedToken} {rest : List PlacedToken}
    (more : List PlacedToken) {tail : Text} (htail : Text.BehindPiece tail)
    (hk : head.kind ∈ Kind.keywords)
    (hline : Line m (head :: (more ++ rest))) {s : Statement} {ps : List Text}
    (hpieces : s.pieces = commandName head.kind.fixedText head.invisible :: ps)
    (hps : ∀ p ∈ ps, p ≠ [])
    (hmore : ∀ m₁ : Mode, m₁.Sound → m₁.atHead = false → m₁.afterRedirection = false →
      Line m₁ (more ++ rest) → Line m₁ rest ∧ ∃ us,
        bare m₁ (Text.spaced ps ++ tail) = us ++ bare m₁ tail ∧
          ∀ head' : PlacedToken, head'.kind = head.kind → head'.invisible = head.invisible →
            s.MadeOf (head' :: us)) :
    s.Rewritten m rest tail := by
  obtain ⟨hchain, hredirection⟩ := isChain_keyword hk
  -- behind the keyword the mode is that of operands
  have hbehind : ((m.hide head.invisible).behind head.kind).atHead = false ∧
      ((m.hide head.invisible).behind head.kind).afterRedirection = false := by
    rw [Mode.behind, hchain, hredirection]
    exact ⟨rfl, rfl⟩
  have hsound := Mode.sound_behind (m.hide head.invisible) head.kind
  obtain ⟨hrest, us, hus, hmade⟩ := hmore _ hsound hbehind.1 hbehind.2 hline.rest_hide
  have hname := commandName_ne_nil (spelling_keyword hk).1 head.invisible
  have hhead := bare_commandName (hline.fits.atHead (Or.inl hk)) hk
    (behindPiece_spaced_append ps htail) head.invisible
  have hs := hmade (bareToken ⟨head.kind, head.kind.fixedText⟩ (m.hide head.invisible)) rfl
    hline.flag
  refine ⟨s, _, _, ?_, hs, .same s, hsound, hrest⟩
  rw [hpieces, filter_eq_of_ne_nil (List.forall_mem_cons.2 ⟨hname, hps⟩), Text.spaced_cons,
    List.cons_append, bare_space, List.append_assoc, hhead, hus]
  rfl

section

variable {rest : List PlacedToken} {tail : Text} (htail : Text.BehindPiece tail)
  (hnil : rest = [] → tail = [])
include htail hnil

/-- An exit is read back. -/
theorem rewritten_exit {m : Mode} {head : PlacedToken} {words : List PlacedToken}
    (hk : head.kind = .exit) (hwords : ∀ w ∈ words, w.isWord = true)
    (hline : Line m (head :: (words ++ rest))) :
    (Statement.exit (words.map (·.value)) head.invisible).Rewritten m rest tail := by
  have hpieces : (Statement.exit (words.map (·.value)) head.invisible).pieces =
      commandName head.kind.fixedText head.invisible :: words.map (·.value) := by
    rw [hk]
    rfl
  apply rewritten_command words htail (by rw [hk]; decide) hline hpieces
    (value_ne_nil_of_line hline.rest hwords)
  intro m₁ hm hhead hr hmore
  obtain ⟨hrest, us, husword, hvalues, hus⟩ := bare_words htail hnil hm hhead hr hmore hwords
  refine ⟨hrest, us, hus, fun head' hk' hflag => ?_⟩
  rw [← hvalues, ← hflag]
  exact .exit (hk'.trans hk) husword

theorem rewritten_goto {m : Mode} {head target : PlacedToken} (hk : head.kind = .goto)
    (ht : target.isWord = true) (hline : Line m (head :: target :: rest)) :
    (Statement.goto target.value head.invisible).Rewritten m rest tail := by
  have hwords : ∀ w ∈ [target], w.isWord = true := by simpa using ht
  have hpieces : (Statement.goto target.value head.invisible).pieces =
      commandName head.kind.fixedText head.invisible :: [target].map (·.value) := by
    rw [hk]
    rfl
  apply rewritten_command [target] htail (by rw [hk]; decide) hline hpieces
    (value_ne_nil_of_line hline.rest hwords)
  intro m₁ hm hhead hr hmore
  obtain ⟨hrest, us, husword, hvalues, hus⟩ := bare_words htail hnil hm hhead hr hmore hwords
  refine ⟨hrest, us, hus, fun head' hk' hflag => ?_⟩
  obtain ⟨u, rfl⟩ : ∃ u, us = [u] :=
    List.length_eq_one_iff.1 (by simpa using congrArg List.length hvalues)
  have hvalue : u.value = target.value := by simpa using hvalues
  rw [← hvalue, ← hflag]
  exact .goto (hk'.trans hk) (husword u List.mem_cons_self)

theorem rewritten_echoLine {m : Mode} {head : PlacedToken} {clauses : List PlacedToken}
    {r : Option Redirection} (hk : head.kind = .echoLine) (hclauses : Redirection.MadeOf r clauses)
    (hline : Line m (head :: (clauses ++ rest))) :
    (Statement.echoLine [Statement.emptyLineMark] head.invisible r).Rewritten m rest tail := by
  have hpieces : (Statement.echoLine [Statement.emptyLineMark] head.invisible r).pieces =
      commandName head.kind.fixedText head.invisible :: Redirection.pieces r := by
    rw [hk]
    rfl
  apply rewritten_command clauses htail (by rw [hk]; decide) hline hpieces
    (Redirection.pieces_ne_nil r)
  intro m₁ hm hhead hr hmore
  obtain ⟨hrest, us, hmade, hus⟩ := bare_clauses htail hnil hclauses hhead hr hmore
  refine ⟨hrest, us, hus, fun head' hk' hflag => ?_⟩
  rw [← hflag]
  exact .echoLine (hk'.trans hk) hmade

/-- Words to print are read back, with their clauses. -/
theorem rewritten_echo {m : Mode} {head : PlacedToken} {words clauses : List PlacedToken}
    {r : Option Redirection} (hk : head.kind = .echo) (hwords : ∀ w ∈ words, w.isWord = true)
    (hclauses : Redirection.MadeOf r clauses)
    (hline : Line m (head :: (words ++ clauses ++ rest))) :
    (Statement.echo (words.map (·.value)) head.invisible r).Rewritten m rest tail := by
  rw [List.append_assoc] at hline
  have hpieces : (Statement.echo (words.map (·.value)) head.invisible r).pieces =
      commandName head.kind.fixedText head.invisible ::
        (words.map (·.value) ++ Redirection.pieces r) := by
    rw [hk]
    rfl
  have hne : ∀ p ∈ words.map (·.value) ++ Redirection.pieces r, p ≠ [] := by
    intro p hp
    rcases List.mem_append.1 hp with hp | hp
    · exact value_ne_nil_of_line hline.rest hwords p hp
    · exact Redirection.pieces_ne_nil r p hp
  apply rewritten_command (words ++ clauses) htail (by rw [hk]; decide)
    (by rwa [List.append_assoc]) hpieces hne
  intro m₁ hm hhead hr hmore
  -- the words are scanned first, with the written clause and the text behind it as what follows
  have htail' := behindPiece_spaced_append (Redirection.pieces r) htail
  have hnil' : clauses ++ rest = [] → Text.spaced (Redirection.pieces r) ++ tail = [] := by
    intro h
    obtain ⟨rfl, hrest⟩ := List.append_eq_nil_iff.1 h
    cases hclauses
    exact hnil hrest
  rw [List.append_assoc] at hmore
  obtain ⟨hmore', us, husword, hvalues, hus⟩ := bare_words htail' hnil' hm hhead hr hmore hwords
  obtain ⟨hrest, us', hmade, hus'⟩ := bare_clauses htail hnil hclauses hhead hr hmore'
  refine ⟨hrest, us ++ us', ?_, fun head' hk' hflag => ?_⟩
  · rw [Text.spaced_append, List.append_assoc, hus, hus', List.append_assoc]
  · rw [← hvalues, ← hflag]
    exact .echo (hk'.trans hk) husword hmade

/-- A command of words is read back. -/
theorem rewritten_statement_of_command {m : Mode} {head : PlacedToken} {words : List PlacedToken}
    (hm : m.Sound) (hk : head.kind = .word) (hwords : ∀ w ∈ words, w.isWord = true)
    (hline : Line m (head :: words ++ rest)) :
    (Statement.command (Text.joinWords ((head :: words).map (·.value)))).Rewritten m rest tail := by
  have hall : ∀ w ∈ head :: words, w.isWord = true :=
    List.forall_mem_cons.2 ⟨PlacedToken.isWord_iff.2 hk, hwords⟩
  -- the words are scanned as words with the same values
  obtain ⟨us, hus, hsame⟩ := bare_spellings htail hnil hm hline
  rw [map_spelling_words hall] at hus
  obtain ⟨husword, hvalues⟩ := words_sameSpelling hsame hall
  have hne := value_ne_nil_of_line hline hall
  have hmade : (Statement.command (Text.joinWords ((head :: words).map (·.value)))).MadeOf us := by
    cases hsame with
    | @cons _ u _ us hu _ =>
      rw [← hvalues]
      exact .command (hu.kind ▸ hk) fun w hw => husword w (List.mem_cons_of_mem u hw)
  refine ⟨_, us, _, ?_, hmade, .same _, hm.behindAll (head :: words), hline.rest_append⟩
  have hpiece : Text.joinWords ((head :: words).map (·.value)) ≠ [] :=
    Text.joinWords_ne_nil (hne _ List.mem_cons_self) _
  have hspaced := Text.spaced_eq_cons_joinWords
    (show (head :: words).map (·.value) ≠ [] by simp)
  rw [Statement.pieces, filter_eq_of_ne_nil (by simpa using hpiece), ← hus, hspaced,
    Text.spaced_cons]
  simp [Text.spaced]

/-- A label is read back if its name does not start with a colon. -/
theorem rewritten_label {m : Mode} {head target : PlacedToken} (hm : m.Sound)
    (hk : head.kind = .label) (ht : target.isWord = true)
    (hcolon : target.value.head? ≠ some (char ':')) (hline : Line m (head :: target :: rest)) :
    (Statement.label target.value).Rewritten m rest tail := by
  have hword : target.kind = .word := PlacedToken.isWord_iff.1 ht
  have hhead := hline.fits.atHead (Or.inr hk)
  have hrest := hline.rest
  rw [hk] at hrest
  have htarget := bare_spelling (Mode.sound_behind m .label) hrest.fits htail fun hk hopen =>
    hnil (hrest.closed hk hopen)
  have hname : target.value ≠ [] := by
    rw [← spelling_of_isWord ht]
    exact hrest.fits.spelling_ne_nil
  -- a colon behind the mark would make a comment of it
  have hnext : (target.value ++ tail).head? ≠ some (char ':') := by
    obtain ⟨c, cs, hcs⟩ := List.exists_cons_of_ne_nil hname
    rw [hcs] at hcolon ⊢
    exact hcolon
  rw [spelling_of_isWord ht, hword] at htarget
  have hmade := @Statement.MadeOf.label (bareToken ⟨.label, [':']⟩ m)
    (bareToken ⟨.word, target.value⟩ (m.behind .label)) rfl rfl
  refine ⟨_, _, (m.behind .label).behind .word, ?_, hmade, .same _, Mode.sound_behind _ _,
    hword ▸ hrest.rest⟩
  rw [Statement.pieces, filter_eq_of_ne_nil (by simp), Text.spaced_singleton, List.cons_append,
    bare_space, List.cons_append, bare_label hhead (hm.noRedirection hhead) hnext, htarget,
    respelled, hword, spelling_of_isWord ht]
  rfl

theorem rewritten_redirect {m : Mode} {head target : PlacedToken} {kind : Redirection.Kind}
    (hk : head.kind = .redirect kind) (ht : target.isWord = true)
    (hline : Line m (head :: target :: rest)) :
    (Statement.redirect ⟨kind, target.value⟩).Rewritten m rest tail := by
  have hword : target.kind = .word := PlacedToken.isWord_iff.1 ht
  have hrest := hline.rest.rest
  rw [hk, hword] at hrest
  have hmade := @Statement.MadeOf.redirect (bareToken ⟨.redirect kind, kind.spelling⟩ m)
    (bareToken ⟨.word, target.value⟩ (m.behind (.redirect kind))) kind rfl rfl
  have hpiece : ∀ p ∈ (Statement.redirect ⟨kind, target.value⟩).pieces, p ≠ [] :=
    Redirection.pieces_ne_nil (some ⟨kind, target.value⟩)
  refine ⟨_, _, _, ?_, hmade, .same _, Mode.sound_behind _ _, hrest⟩
  rw [filter_eq_of_ne_nil hpiece, Statement.pieces, Text.spaced_singleton, List.cons_append]
  exact bare_clause htail hnil hk ht hline

end

/-- An assignment is scanned as other words, which make it up as well. -/
theorem rewritten_set {m : Mode} {head : PlacedToken} {words rest : List PlacedToken}
    {tail name value : Text} (htail : Text.BehindPiece tail) (hk : head.kind = .set)
    (hwords : ∀ w ∈ words, w.isWord = true)
    (hjoin : Text.joinWords (words.map (·.value)) = name ++ char '=' :: value)
    (hname : char '=' ∉ name) (hline : Line m (head :: (words ++ rest))) :
    (Statement.set (Text.words (Assignment.side name)) (Assignment.side value)
      head.invisible).Rewritten m rest tail := by
  have hkeyword : head.kind ∈ Kind.keywords := by
    rw [hk]
    decide
  have hcanonical := Assignment.canonical_sides hjoin hname fun w hw =>
    hline.rest.withinLine w (List.mem_append_left rest hw) (hwords w hw)
  -- the words are written anew from the name and the value
  obtain ⟨head', us, -, hmade, hscan⟩ :=
    hcanonical.bare_set (hline.fits.atHead (Or.inl hkeyword)) head.invisible htail
  rw [hline.flag] at hmade
  have hrest := hline.rest_hide.rest_append
  rw [hk, Mode.behindAll_words rfl rfl hwords] at hrest
  refine ⟨_, _, _, ?_, hmade, .same _, Mode.sound_behind (m.hide head.invisible) .set, hrest⟩
  have hset := commandName_ne_nil (show "set".text ≠ [] by decide) head.invisible
  have hpieces : ∀ p ∈ (Statement.set (Text.words (Assignment.side name))
      (Assignment.side value) head.invisible).pieces, p ≠ [] :=
    List.forall_mem_cons.2 ⟨hset, by simp⟩
  rw [filter_eq_of_ne_nil hpieces, ← hscan, Statement.pieces, Text.spaced_cons,
    Text.spaced_singleton, List.cons_append, bare_space, List.append_assoc, List.cons_append]

/-- Tokens of the same spellings are spelled alike, and end a line alike. -/
theorem spellings_sameSpelling {ts us : List PlacedToken}
    (h : List.Forall₂ PlacedToken.SameSpelling ts us) :
    us.map (·.spelling) = ts.map (·.spelling) ∧
      ((∀ t ∈ ts, t.endsLine = false) → ∀ u ∈ us, u.endsLine = false) := by
  induction h with
  | nil => exact ⟨rfl, id⟩
  | @cons t u ts us htu _ ih =>
    obtain ⟨hspellings, hends⟩ := ih
    refine ⟨by rw [List.map_cons, List.map_cons, hspellings, htu.spelling], fun hts => ?_⟩
    rw [List.forall_mem_cons] at hts ⊢
    refine ⟨?_, hends hts.2⟩
    rw [PlacedToken.endsLine, ← htu.kind]
    exact hts.1

/-- A comment is its keyword and its text, and an empty text leaves no piece. -/
theorem spaced_rem {ps : List Text} (h : ∀ p ∈ ps, p ≠ []) :
    Text.spaced ((Statement.rem (Text.joinWords ps)).pieces.filter (!·.isEmpty)) =
      char ' ' :: (Kind.rem.fixedText ++ Text.spaced ps) := by
  cases ps with
  | nil => rfl
  | cons p ps =>
    have hpieces : ∀ q ∈ (Statement.rem (Text.joinWords (p :: ps))).pieces, q ≠ [] := by
      have hrem : "rem".text ≠ [] := by decide
      refine List.forall_mem_cons.2 ⟨hrem, List.forall_mem_singleton.2 ?_⟩
      exact Text.joinWords_ne_nil (h p List.mem_cons_self) ps
    rw [filter_eq_of_ne_nil hpieces, Statement.pieces, Text.spaced_cons, Text.spaced_singleton,
      Text.spaced_eq_cons_joinWords (List.cons_ne_nil p ps)]
    rfl

/-- A comment takes the rest of the line. -/
theorem rewritten_rem {m : Mode} {head : PlacedToken} {line : List PlacedToken}
    (hk : head.kind = .rem) (hends : ∀ t ∈ line, t.endsLine = false)
    (hline : Line m (head :: line)) :
    (Statement.rem (Text.joinWords (line.map (·.spelling)))).Rewritten m [] [] := by
  have hkeyword : .rem ∈ Kind.keywords := by decide
  have hhead := hline.fits.atHead (Or.inl (hk ▸ hkeyword))
  have hrest := hline.rest
  rw [hk, ← List.append_nil line] at hrest
  obtain ⟨us, hus, hsame⟩ :=
    bare_spellings Text.behindPiece_nil (fun _ => rfl) (Mode.sound_behind m .rem) hrest
  -- no spelling is empty, so none is left out of the line
  have hne : ∀ p ∈ line.map (·.spelling), p ≠ [] := by
    intro p hp
    obtain ⟨t, ht, rfl⟩ := List.mem_map.1 hp
    exact hrest.spelling_ne_nil t (List.mem_append_left [] ht)
  obtain ⟨hspellings, husends⟩ := spellings_sameSpelling hsame
  have hmade := @Statement.MadeOf.rem (bareToken ⟨.rem, Kind.rem.fixedText⟩ m) us rfl
    (husends hends)
  rw [hspellings] at hmade
  refine ⟨_, _, _, ?_, hmade, .same _, (Mode.sound_behind m .rem).behindAll line, .nil⟩
  rw [spaced_rem hne, List.append_nil, bare_space, ← List.append_nil (Text.spaced _),
    bare_keyword hhead hkeyword (behindPiece_spaced_append _ Text.behindPiece_nil), hus]
  rfl

/-! ## All statements -/

/-- No label mark is followed by a word that starts with a colon. -/
def LabelsPlain (ts : List PlacedToken) : Prop :=
  ∀ before label word after, ts = before ++ label :: word :: after → label.kind = .label →
    word.kind = .word → word.value.head? ≠ some (char ':')

/-- The condition on labels is one on tokens that follow each other. -/
theorem labelsPlain_iff_isChain (ts : List PlacedToken) : LabelsPlain ts ↔
    ts.IsChain fun label word =>
      label.kind = .label → word.kind = .word → word.value.head? ≠ some (char ':') := by
  rw [List.isChain_iff_forall_rel_of_append_cons_cons]
  exact ⟨fun h _ _ _ _ hts => h _ _ _ _ hts, fun h _ _ _ _ hts => h hts⟩

instance (ts : List PlacedToken) : Decidable (LabelsPlain ts) :=
  decidable_of_iff' _ (labelsPlain_iff_isChain ts)

theorem LabelsPlain.of_append {ts us : List PlacedToken} (h : LabelsPlain (ts ++ us)) :
    LabelsPlain ts ∧ LabelsPlain us := by
  refine ⟨fun before label word after hts => ?_, fun before label word after hus => ?_⟩
  · exact h before label word (after ++ us) (by rw [hts]; simp)
  · exact h (ts ++ before) label word after (by rw [hus]; simp)

theorem LabelsPlain.of_cons {t : PlacedToken} {ts : List PlacedToken} (h : LabelsPlain (t :: ts)) :
    LabelsPlain ts := by
  have happend : LabelsPlain ([t] ++ ts) := h
  exact happend.of_append.2

/-- No line break is among the tokens of a line. -/
theorem Token.Line.eq_nil {m : Mode} {ts : List PlacedToken} (h : Line m ts)
    (hend : atLineEnd ts = true) : ts = [] := by
  cases ts with
  | nil => rfl
  | cons t ts =>
    have hk : t.kind = .newLine := by simpa [atLineEnd, PlacedToken.endsLine] using hend
    exact absurd hk h.fits.kind_ne_newLine

/-- Every statement of a line is written as pieces that make it up. -/
theorem Statement.MadeOf.rewritten {s : Statement} {ts rest : List PlacedToken} {m : Mode}
    {tail : Text} (h : s.MadeOf ts) (hbefore : s.Before rest) (hm : m.Sound)
    (htail : Text.BehindPiece tail) (hnil : rest = [] → tail = []) (hline : Line m (ts ++ rest))
    (hlabels : LabelsPlain ts) : s.Rewritten m rest tail := by
  cases h with
  | echo hk hwords hclauses => exact rewritten_echo htail hnil hk hwords hclauses hline
  | echoLine hk hclauses => exact rewritten_echoLine htail hnil hk hclauses hline
  | exit hk hwords => exact rewritten_exit htail hnil hk hwords hline
  | set hk hwords hjoin hname => exact rewritten_set htail hk hwords hjoin hname hline
  | command hk hwords => exact rewritten_statement_of_command htail hnil hm hk hwords hline
  | goto hk ht => exact rewritten_goto htail hnil hk ht hline
  | @label head target hk ht =>
    have htarget : target.kind = .word := PlacedToken.isWord_iff.1 ht
    have hcolon := hlabels [] head target [] rfl hk htarget
    exact rewritten_label htail hnil hm hk ht hcolon hline
  | redirect hk ht => exact rewritten_redirect htail hnil hk ht hline
  | rem hk hends =>
    -- a comment ends at a line break or with the tokens, and a line has no line break
    obtain rfl := hline.rest_append.eq_nil hbefore
    rw [hnil rfl]
    rw [List.append_nil] at hline
    exact rewritten_rem hk hends hline
  | @andIfSuccess head hk =>
    have hspelling : head.spelling = [char '&', char '&'] := by rw [Token.spelling, hk]; rfl
    exact rewritten_token htail hnil hm hline (by rw [hspelling]; rfl) (.andIfSuccess hk) (.same _)
  | @andAlways head hk =>
    have hspelling : head.spelling = [char '&'] := by rw [Token.spelling, hk]; rfl
    exact rewritten_token htail hnil hm hline (by rw [hspelling]; rfl) (.andAlways hk) (.same _)
  | newLine hk => exact absurd hk hline.fits.kind_ne_newLine
  | @unknown head hk =>
    have halike := Statement.Alike.unknown (sameSpelling_respelled head m)
    exact rewritten_token htail hnil hm hline rfl (.unknown hk) halike

end BatchScript
