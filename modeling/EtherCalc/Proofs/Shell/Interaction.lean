import EtherCalc.Proofs.Session.Caching
import EtherCalc.Proofs.Text.Blank
import EtherCalc.Proofs.Value.WrittenIntegers
import EtherCalc.Shell

/-!
An interactive session against single evaluations.

The forms of a line are said by its parts.  Whatever was typed before, an expression is answered
with what a single evaluation prints for it in the current context, and that context is the one
that the session began with and the settings since, in order.
-/

namespace EtherCalc

namespace Shell

/-- The line is a command: a colon and a word, with a text after the word. -/
def Commands (line word : String) (rest : List Char) : Prop :=
  Padded line.toList (':' :: (word.toList ++ rest)) ∧ (∀ c ∈ word.toList, ¬ isBlank c) ∧
    ∀ c ∈ rest.head?, isBlank c

def Quits (line : String) : Prop :=
  ∃ word ∈ ["q", "quit", "exit"], ∃ rest, Commands line word rest

/-- The line gives a name another value. -/
def Sets (line name text : String) : Prop :=
  ∃ gap gap', Padded line.toList
      (":set".toList ++ gap ++ name.toList ++ gap' ++ text.toList) ∧
    Blanks gap ∧ gap ≠ [] ∧ Blanks gap' ∧ gap' ≠ [] ∧
    (∀ c ∈ name.toList, ¬ isBlank c) ∧ name ≠ "" ∧ Bare text.toList ∧ text ≠ ""

/-- The line is an expression. -/
def Enters (line source : String) : Prop :=
  Padded line.toList source.toList ∧ source ≠ "" ∧ source.toList.head? ≠ some ':'

section

variable {context : Context} {settings : List (String × String)} {name : String}

end

section

variable {α β : Type} {input rest : String}

end

variable {files : Files} {options : Options} {input rest : String} {engine : Engine}
variable {context : Context}

section

variable {console : Console} {line word name text source : String} {chars : List Char}

theorem answer_commands (commands : Commands line word chars) :
    console.answer line = 
      if word = "q" ∨ word = "quit" ∨ word = "exit" then (console, .quit)
      else if word = "h" ∨ word = "help" then (console, .print Console.help)
      else if word = "vars" then (console, .print (Console.listing console.context))
      else if word = "set" then
        match splitOnce isBlank (trimBlank chars) with
        | some (name, value) =>
            (console.set (String.ofList name) (String.ofList (trimBlank value)), .silent)
        | none => (console, .print "usage: :set NAME VALUE")
      else (console, .print ("unknown command `:" ++ word ++ "` (try :help)")) := by
  obtain ⟨padded, unsplit, follows⟩ := commands
  have isCommand : console.answer line = console.command (word.toList ++ chars) := by
    rw [Console.answer, padded.trimBlank]
    rfl
  rw [isCommand]
  unfold Console.command
  cases chars with
  | nil =>
      rw [List.append_nil, splitOnce_eq_none_iff.mpr unsplit, String.ofList_toList]
      rfl
  | cons c rest =>
      have blank := follows c rfl
      have split : splitOnce isBlank (word.toList ++ c :: rest) = some (word.toList, rest) :=
        splitOnce_eq_some_iff.mpr ⟨c, rfl, blank, unsplit⟩
      have trimmed : trimBlank (c :: rest) = trimBlank rest := by
        rw [trimBlank, List.dropWhile_cons_of_pos blank, trimBlank]
      have spelled : String.ofList word.toList = word := String.ofList_toList
      rw [split, trimmed]
      dsimp only
      generalize String.ofList word.toList = named at spelled ⊢
      subst spelled
      rfl

theorem sets_of_commands {first value : List Char} (commands : Commands line "set" chars)
    (split : splitOnce isBlank (trimBlank chars) = some (first, value)) :
    Sets line (String.ofList first) (String.ofList (trimBlank value)) := by
  obtain ⟨⟨_, before, after, isLine, blank, blankAfter⟩, _, follows⟩ := commands
  obtain ⟨bareRest, gap, gapAfter, isRest, blankGap, blankGapAfter⟩ := padded_trimBlank chars
  obtain ⟨bareText, more, moreAfter, isValue, blankMore, blankMoreAfter⟩ := padded_trimBlank value
  obtain ⟨c, isSplit, isSpace, plain⟩ := splitOnce_eq_some_iff.mp split
  have isFirst : first ≠ [] := by
    rintro rfl
    rw [isSplit] at bareRest
    exact bareRest.first c rfl isSpace
  have isText : trimBlank value ≠ [] := by
    intro isNil
    have blankTail : Blanks (c :: value) := by
      rw [isValue, isNil]
      simpa [Blanks, isSpace, or_imp, forall_and] using And.intro blankMore blankMoreAfter
    have last := bareRest.last
    rw [isSplit, List.getLast?_append_of_ne_nil _ (List.cons_ne_nil _ _)] at last
    exact last _ (List.getLast?_eq_some_getLast (List.cons_ne_nil _ _))
      (blankTail _ (List.getLast_mem _))
  have isGap : gap ≠ [] := by
    rintro rfl
    obtain ⟨d, rest, rfl⟩ := List.exists_cons_of_ne_nil isFirst
    rw [isSplit] at isRest bareRest
    rw [isRest] at follows
    exact bareRest.first d rfl (follows d rfl)
  have bareSet : Bare ":set".toList :=
    ⟨fun c isHead => by cases isHead; decide, fun c isLast => by cases isLast; decide⟩
  have isName : (String.ofList first).toList = first := String.toList_ofList
  have isTextOf : (String.ofList (trimBlank value)).toList = trimBlank value := String.toList_ofList
  -- blanks after the value go with those after the line
  refine ⟨gap, c :: more, ⟨?_, before, moreAfter ++ gapAfter ++ after, ?_, blank, ?_⟩, blankGap,
    isGap, ?_, List.cons_ne_nil _ _, ?_, ?_, ?_, ?_⟩
  · have whole : Bare (":set".toList ++ (gap ++ first ++ c :: more) ++ trimBlank value) :=
      bareSet.append bareText (by decide) isText
    rw [isName, isTextOf]
    simpa only [List.append_assoc] using whole
  · rw [isName, isTextOf]
    have isValue' : c :: value = c :: more ++ trimBlank value ++ moreAfter :=
      congrArg (c :: ·) isValue
    calc line.toList
        = before ++ (":set".toList ++ (gap ++ (first ++ c :: value) ++ gapAfter)) ++ after := by
          rw [← isSplit, ← isRest]
          exact isLine
      _ = _ := by
          rw [isValue']
          simp only [List.append_assoc]
  · simp only [Blanks, List.mem_append, or_imp, forall_and] at *
    exact ⟨⟨blankMoreAfter, blankGapAfter⟩, blankAfter⟩
  · simpa [Blanks, isSpace] using blankMore
  · rwa [String.toList_ofList]
  · exact fun isEmpty => isFirst (String.ofList_eq_empty_iff.mp isEmpty)
  · rwa [String.toList_ofList]
  · exact fun isEmpty => isText (String.ofList_eq_empty_iff.mp isEmpty)

theorem answer_enters (enters : Enters line source) :
    console.answer line = console.evaluate source := by
  obtain ⟨padded, isSource, noColon⟩ := enters
  unfold Console.answer
  rw [padded.trimBlank]
  split
  · rename_i isNil
    exact absurd (by simpa using isNil) isSource
  · rename_i rest isColon
    rw [isColon] at noColon
    contradiction
  · rw [String.ofList_toList]

/-- What a line does to a session, and what it is answered. -/
inductive Effect (console : Console) (line : String) : Console × Response → Prop where
  | quits (quits : Quits line) : Effect console line (console, .quit)
  | sets {name text : String} (sets : Sets line name text) :
      Effect console line (console.set name text, .silent)
  | enters {source : String} (enters : Enters line source) :
      Effect console line (console.evaluate source)
  | kept {response : Response} (stays : response ≠ .quit) : Effect console line (console, response)

theorem commands_effect (commands : Commands line word chars) :
    Effect console line (console.answer line) := by
  rw [answer_commands commands]
  split
  · rename_i known
    exact .quits ⟨word, by simpa using known, chars, commands⟩
  split
  · exact .kept nofun
  split
  · exact .kept nofun
  split
  · rename_i isSet
    subst isSet
    split
    · rename_i split
      exact .sets (sets_of_commands commands split)
    · exact .kept nofun
  · exact .kept nofun

theorem answer_effect (console : Console) (line : String) :
    Effect console line (console.answer line) := by
  have padded := padded_trimBlank line.toList
  cases trimmed : trimBlank line.toList with
  | nil =>
      have silent : console.answer line = (console, .silent) := by
        rw [Console.answer, trimmed]
      exact silent ▸ .kept nofun
  | cons c rest =>
      rw [trimmed] at padded
      by_cases isColon : c = ':'
      · subst isColon
        have split : rest = rest.takeWhile (!isBlank ·) ++ rest.dropWhile (!isBlank ·) :=
          List.takeWhile_append_dropWhile.symm
        have commands : Commands line (String.ofList (rest.takeWhile (!isBlank ·)))
            (rest.dropWhile (!isBlank ·)) := by
          refine ⟨?_, ?_, ?_⟩
          · rwa [String.toList_ofList, ← split]
          · rw [String.toList_ofList]
            exact fun c member => by simpa using List.mem_takeWhile_imp member
          · intro c first
            have outside := List.head?_dropWhile_not (!isBlank ·) rest
            rw [first] at outside
            simpa using outside
        exact commands_effect commands
      · have enters : Enters line (String.ofList (c :: rest)) := by
          refine ⟨by rwa [String.toList_ofList], ?_, ?_⟩
          · exact fun isEmpty => List.cons_ne_nil _ _ (String.ofList_eq_empty_iff.mp isEmpty)
          · simpa using isColon
        exact answer_enters enters ▸ .enters enters

/-- What a console has in its cache is what its engine makes of the sources. -/
def Faithful (engine : Engine) (console : Console) : Prop :=
  console.engine = engine ∧ console.cache.Faithful engine

theorem Faithful.answer {engine : Engine} (faithful : Faithful engine console) (line : String) :
    Faithful engine (console.answer line).1 := by
  have effect := answer_effect console line
  generalize console.answer line = after at effect
  obtain ⟨rfl, ofCache⟩ := faithful
  cases effect with
  | enters enters => exact ⟨rfl, Cache.parse_faithful ofCache⟩
  | quits | sets | kept => exact ⟨rfl, ofCache⟩

theorem Faithful.evaluate {engine : Engine} (faithful : Faithful engine console) (source : String) :
    (console.evaluate source).2 = .print (Console.shown source
      (engine.evaluate .standard console.context source).result) := by
  obtain ⟨rfl, ofCache⟩ := faithful
  simp only [Console.evaluate, Cache.parse_result ofCache, Engine.evaluate]
  cases console.engine.parse source <;> rfl

end

/-- The session after some lines of which none ends it. -/
def Console.after (console : Console) (lines : List String) : Console :=
  lines.foldl (fun console line => (console.answer line).1) console

section

variable {console : Console} {before after : List String} {line : String}

theorem Faithful.run {engine : Engine} (faithful : Faithful engine console)
    (lines : List String) : Faithful engine (console.after lines) := by
  induction lines generalizing console with
  | nil => exact faithful
  | cons line lines ih => exact ih (faithful.answer line)

end

end Shell

end EtherCalc
