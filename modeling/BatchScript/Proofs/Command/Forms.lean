import BatchScript.Proofs.Command.AllOrNothing
import BatchScript.Proofs.Statement.Listing
import BatchScript.Proofs.Statement.Record

/-!
# What the forms of output tell

A listing tells the tokens or the statements that it lists, and the records of a script tell its
statements, except that they show a pair of surrogates as the character that it makes. So two
sources that are listed alike have the same tokens or the same statements, with all their fields;
two with the same records have the same statements up to such pairs. Only the normal form says less.

> `json_read_back`: the records of a script are decoded to its statements with their pairs joined;
> `listings_read_back`: a listing has one line an item, and tells the items.
-/

namespace BatchScript

namespace Command

/-- Whether some run over a source returns a text in a form. -/
def Form.Gives (form : Form) (source text : Text) : Prop :=
  ∃ (r : Request) (d : Directory), r.form = form.name ∧ r.Means d source ∧
    (run r d).outcome = .ok text

/-- A run that prints a source given as it is. -/
def printing (form : Form) (source : Text) : Request :=
  ⟨source, true, form.name, none⟩

/-- What a run returns shows the source that its request means, in the form it asks for. -/
theorem shows_of_gives {form : Form} {source text : Text} (h : form.Gives source text) :
    form.Shows source text := by
  obtain ⟨r, d, hform, hmeans, hrun⟩ := h
  obtain ⟨form', source', hform', hmeans', hshows⟩ := (run_of_ok hrun).shows
  have hscript := Request.script_eq_ok_iff.2 ⟨hform, hmeans⟩
  rw [Request.script_eq_ok_iff.2 ⟨hform', hmeans'⟩] at hscript
  cases hscript
  exact hshows

/-- A source that shows in a form is printed in that form. -/
theorem run_printing {form : Form} {source text : Text} (h : form.Shows source text)
    (d : Directory) : (run (printing form source) d).outcome = .ok text := by
  obtain ⟨log, hrun⟩ := run_eq_deliver (r := printing form source) (d := d) rfl (.given rfl) h
  rw [hrun]
  rfl

/-- What a run over a source returns as records is the text of the records of its statements. -/
theorem records_of_gives {source text : Text} (h : Form.json.Gives source text) :
    ∃ ss, Script.ofText source = .ok ss ∧ (∀ s ∈ ss, s.Known) ∧
      text = (Json.list (ss.map Statement.record)).write := by
  cases shows_of_gives h with
  | json hread => exact ⟨_, hread, Script.known_of_ofText hread, rfl⟩

/-- **The records of a script tell its statements up to pairs of surrogates.** A source that can be
read is printed as records. Whatever run returns a text of records, the text is decoded to the
statements of its source with the pairs in their texts joined. So two sources have the same text of
records exactly when their statements are the same once joined, and then the statements are the same
where no text of theirs holds a pair. -/
theorem json_read_back :
    (∀ (source : Text) (ss : List Statement) (d : Directory), Script.ofText source = .ok ss →
      ∃ text, (run (printing .json source) d).outcome = .ok text) ∧
    (∀ source text : Text, Form.json.Gives source text →
      ∃ ss, Script.ofText source = .ok ss ∧
        Script.ofJson? text = some (ss.map Statement.joined)) ∧
    ∀ source source' text text' : Text, Form.json.Gives source text →
      Form.json.Gives source' text' →
      ∃ ss ss', Script.ofText source = .ok ss ∧ Script.ofText source' = .ok ss' ∧
        (text = text' ↔ ss.map Statement.joined = ss'.map Statement.joined) ∧
        ((∀ s ∈ ss ++ ss', ∀ t ∈ s.texts, t.PairFree) → text = text' → ss = ss') := by
  refine ⟨fun source ss d hread => ⟨_, run_printing (.json hread) d⟩, ?_, ?_⟩
  · intro source text h
    obtain ⟨ss, hread, hknown, rfl⟩ := records_of_gives h
    exact ⟨ss, hread, Script.ofJson?_write hknown⟩
  · intro source source' text text' h h'
    obtain ⟨ss, hread, hknown, rfl⟩ := records_of_gives h
    obtain ⟨ss', hread', hknown', rfl⟩ := records_of_gives h'
    -- the text is decoded to the joined statements, and depends on nothing else
    have hiff : (Json.list (ss.map Statement.record)).write =
        (Json.list (ss'.map Statement.record)).write ↔
          ss.map Statement.joined = ss'.map Statement.joined := by
      constructor
      · intro hsame
        have hdecoded := Script.ofJson?_write hknown
        rw [hsame, Script.ofJson?_write hknown'] at hdecoded
        exact (Option.some.inj hdecoded).symm
      · intro hsame
        rw [← Script.write_joined hknown, hsame, Script.write_joined hknown']
    refine ⟨ss, ss', hread, hread', hiff, fun hfree hsame => ?_⟩
    obtain ⟨hfree, hfree'⟩ := List.forall_mem_append.1 hfree
    have hjoined := hiff.1 hsame
    rwa [Statement.map_joined_eq_self hfree, Statement.map_joined_eq_self hfree'] at hjoined

/-- A quote and a backslash, a character above the basic plane and a jump without its label; a
source with the keyword in other letters has the same records. -/
theorem json_read_back_awkward :
    (∃ text, (run (printing .json "@ECHO it's\\ 😀, 2>>a & goto".text) ⟨[]⟩).outcome = .ok text ∧
      Script.ofJson? text = some
        [.echo ["it's\\".text, "😀,".text] true (some ⟨.stderrAppend, "a".text⟩), .andAlways,
          .unknown ⟨⟨.goto, "goto".text⟩, true, 1, 23⟩]) ∧
    ∃ ss, Script.ofText "@ECHO it's\\ 😀, 2>>a & goto".text = .ok ss ∧
      Script.ofText "@echo it's\\ 😀, 2>>a & goto".text = .ok ss := by
  have hread : Script.ofText "@ECHO it's\\ 😀, 2>>a & goto".text = .ok
      [.echo ["it's\\".text, "😀,".text] true (some ⟨.stderrAppend, "a".text⟩), .andAlways,
        .unknown ⟨⟨.goto, "goto".text⟩, true, 1, 23⟩] := by decide +kernel
  have hfree : ∀ ss ss', Script.ofText "@ECHO it's\\ 😀, 2>>a & goto".text = .ok ss →
      Script.ofText "@echo it's\\ 😀, 2>>a & goto".text = .ok ss' →
      ∀ s ∈ ss ++ ss', ∀ t ∈ s.texts, t.PairFree := by
    intro ss ss' hss hss'
    have hsame : Script.ofText "@echo it's\\ 😀, 2>>a & goto".text =
        Script.ofText "@ECHO it's\\ 😀, 2>>a & goto".text := by decide +kernel
    rw [hsame] at hss'
    rw [hread] at hss hss'
    cases hss
    cases hss'
    decide
  have hsame : (run (printing .json "@echo it's\\ 😀, 2>>a & goto".text) ⟨[]⟩).outcome =
      (run (printing .json "@ECHO it's\\ 😀, 2>>a & goto".text) ⟨[]⟩).outcome := by decide +kernel
  obtain ⟨text, hrun⟩ := json_read_back.1 _ _ ⟨[]⟩ hread
  have hgives : Form.json.Gives "@ECHO it's\\ 😀, 2>>a & goto".text text :=
    ⟨_, _, rfl, .given rfl, hrun⟩
  have hgives' : Form.json.Gives "@echo it's\\ 😀, 2>>a & goto".text text :=
    ⟨_, _, rfl, .given rfl, hsame.trans hrun⟩
  obtain ⟨_, hss, hdecoded⟩ := json_read_back.2.1 _ _ hgives
  rw [hread] at hss
  cases hss
  obtain ⟨ss, ss', hss, hss', -, hequal⟩ := json_read_back.2.2 _ _ _ _ hgives hgives'
  obtain rfl := hequal (hfree ss ss' hss hss') rfl
  exact ⟨⟨text, hrun, hdecoded⟩, ss, hss, hss'⟩

/-- Two surrogates that a caret parts in the source, and the character that they make, have the same
records. -/
theorem json_blind_to_pairs :
    ∃ text, (run (printing .json ("echo ".text ++ [surrogate 0x3D, char '^', surrogate 0x600]))
        ⟨[]⟩).outcome = .ok text ∧
      (run (printing .json "echo 😀".text) ⟨[]⟩).outcome = .ok text ∧
      Script.ofText ("echo ".text ++ [surrogate 0x3D, char '^', surrogate 0x600]) =
        .ok [.echo [[surrogate 0x3D, surrogate 0x600]] false none] ∧
      Script.ofText "echo 😀".text = .ok [.echo ["😀".text] false none] ∧
      Statement.echo [[surrogate 0x3D, surrogate 0x600]] false none ≠
        .echo ["😀".text] false none := by
  have hread : Script.ofText ("echo ".text ++ [surrogate 0x3D, char '^', surrogate 0x600]) =
      .ok [.echo [[surrogate 0x3D, surrogate 0x600]] false none] := by decide +kernel
  have hsame :
      (run (printing .json "echo 😀".text) ⟨[]⟩).outcome =
        (run (printing .json ("echo ".text ++ [surrogate 0x3D, char '^', surrogate 0x600]))
          ⟨[]⟩).outcome := by decide +kernel
  have hrun := run_printing (.json hread) ⟨[]⟩
  exact ⟨_, hrun, hsame.trans hrun, hread, by decide +kernel, by decide⟩

/-- **A listing has one line an item, and tells the items.** The tokens of every source are listed,
and the statements of every source that can be read; two sources with the same listing have the same
tokens or the same statements. -/
theorem listings_read_back :
    (∀ (source : Text) (d : Directory),
      ∃ text, (run (printing .tokens source) d).outcome = .ok text) ∧
    (∀ (source : Text) (ss : List Statement) (d : Directory), Script.ofText source = .ok ss →
      ∃ text, (run (printing .statements source) d).outcome = .ok text) ∧
    (∀ source text : Text, Form.tokens.Gives source text →
      Text.ListsByLine PlacedToken.listing (Token.ofText source) text) ∧
    (∀ source text : Text, Form.statements.Gives source text →
      ∃ ss, Script.ofText source = .ok ss ∧ Text.ListsByLine Statement.listing ss text) ∧
    (∀ source source' text : Text, Form.tokens.Gives source text →
      Form.tokens.Gives source' text → Token.ofText source = Token.ofText source') ∧
    ∀ source source' text : Text, Form.statements.Gives source text →
      Form.statements.Gives source' text →
      ∃ ss, Script.ofText source = .ok ss ∧ Script.ofText source' = .ok ss := by
  -- one reader for the lines of a listing gives its shape, and its items back
  have htokens : ∀ source text : Text, Form.tokens.Gives source text →
      Text.ListsByLine PlacedToken.listing (Token.ofText source) text ∧
        Text.readLines PlacedToken.readListing text = some (Token.ofText source) := by
    intro source text h
    cases shows_of_gives h with
    | tokens => exact PlacedToken.listsByLine fun t => Token.known_of_mem_ofText
  have hstatements : ∀ source text : Text, Form.statements.Gives source text →
      ∃ ss, Script.ofText source = .ok ss ∧ Text.ListsByLine Statement.listing ss text ∧
        Text.readLines Statement.readListing text = some ss := by
    intro source text h
    cases shows_of_gives h with
    | statements hread =>
      exact ⟨_, hread, Statement.listsByLine (Script.known_of_ofText hread)⟩
  refine ⟨fun source d => ⟨_, run_printing (.tokens source) d⟩,
    fun source ss d hread => ⟨_, run_printing (.statements hread) d⟩,
    fun source text h => (htokens source text h).1, ?_, ?_, ?_⟩
  · intro source text h
    obtain ⟨ss, hread, hlists, -⟩ := hstatements source text h
    exact ⟨ss, hread, hlists⟩
  · intro source source' text h h'
    have htext := (htokens source text h).2
    rw [(htokens source' text h').2] at htext
    exact (Option.some.inj htext).symm
  · intro source source' text h h'
    obtain ⟨ss, hread, -, htext⟩ := hstatements source text h
    obtain ⟨ss', hread', -, htext'⟩ := hstatements source' text h'
    rw [htext] at htext'
    cases htext'
    exact ⟨ss, hread, hread'⟩

/-- Words that look like parts of a listing, a line break, and a colon without a label; blanks at
the end of a source change no token, and neither they nor other blanks change its statements. -/
theorem listings_read_back_awkward :
    (∃ text, (run (printing .tokens "echo 'a', \"2:3)\n:".text) ⟨[]⟩).outcome = .ok text ∧
      Text.ListsByLine PlacedToken.listing (Token.ofText "echo 'a', \"2:3)\n:".text) text ∧
      Token.ofText "echo 'a', \"2:3)\n:".text = Token.ofText "echo 'a', \"2:3)\n: ".text) ∧
    ∃ text ss, Text.ListsByLine Statement.listing ss text ∧
      Script.ofText "echo 'a', \"2:3)\n:".text = .ok ss ∧
      Script.ofText "ECHO  'a',  \"2:3)\n: ".text = .ok ss := by
  have hread : Script.ofText "echo 'a', \"2:3)\n:".text = .ok
      [.echo ["'a',".text, "\"2:3)".text] false none, .newLine,
        .unknown ⟨⟨.label, ":".text⟩, false, 2, 1⟩] := by decide +kernel
  have htokens : (run (printing .tokens "echo 'a', \"2:3)\n: ".text) ⟨[]⟩).outcome =
      (run (printing .tokens "echo 'a', \"2:3)\n:".text) ⟨[]⟩).outcome := by decide +kernel
  have hstatements : (run (printing .statements "ECHO  'a',  \"2:3)\n: ".text) ⟨[]⟩).outcome =
      (run (printing .statements "echo 'a', \"2:3)\n:".text) ⟨[]⟩).outcome := by decide +kernel
  obtain ⟨htoken, hstatement, hlists, hlists', hsame, hsame'⟩ := listings_read_back
  obtain ⟨text, hrun⟩ := htoken "echo 'a', \"2:3)\n:".text ⟨[]⟩
  obtain ⟨text', hrun'⟩ := hstatement _ _ ⟨[]⟩ hread
  have hgives : Form.statements.Gives "echo 'a', \"2:3)\n:".text text' :=
    ⟨_, _, rfl, .given rfl, hrun'⟩
  obtain ⟨ss, hss, hlines⟩ := hlists' _ _ hgives
  obtain ⟨ss', hss', hother⟩ := hsame' _ "ECHO  'a',  \"2:3)\n: ".text _ hgives
    ⟨_, _, rfl, .given rfl, hstatements.trans hrun'⟩
  rw [hss] at hss'
  cases hss'
  have hgives'' : Form.tokens.Gives "echo 'a', \"2:3)\n:".text text :=
    ⟨_, _, rfl, .given rfl, hrun⟩
  exact ⟨⟨text, hrun, hlists _ _ hgives'',
    hsame _ _ _ hgives'' ⟨_, _, rfl, .given rfl, htokens.trans hrun⟩⟩,
    text', ss, hlines, hss, hother⟩

end Command

end BatchScript
