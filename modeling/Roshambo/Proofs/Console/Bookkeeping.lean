import Roshambo.Console.Program
import Roshambo.Proofs.Pass.Score
import Roshambo.Proofs.Round.Scorecards

/-!
# The books of the console

What the console asks of its game, and what it counts meanwhile. Printing asks nothing, and every
command makes at most one move before it takes the news. A round is counted when it is started and
a score when its round ends, so the books follow from the requests (`Asked`).
-/
namespace Roshambo.Console

open Game (starts)

/-! ## Printing -/

/-- Something was printed, and nothing else happened. -/
def Prints (c c' : Console) : Prop := ∃ printed, c' = { c with printed := printed }

variable {c c' c'' : Console}

theorem Prints.refl (c : Console) : c.Prints c := ⟨c.printed, rfl⟩

theorem Prints.trans (first : c.Prints c') (second : c'.Prints c'') : c.Prints c'' := by
  obtain ⟨_, rfl⟩ := first
  obtain ⟨printed, rfl⟩ := second
  exact ⟨printed, rfl⟩

theorem Prints.game (h : c.Prints c') : c'.game = c.game := by
  obtain ⟨_, rfl⟩ := h
  rfl

theorem Prints.round (h : c.Prints c') : c'.round = c.round := by
  obtain ⟨_, rfl⟩ := h
  rfl

theorem Prints.total (h : c.Prints c') : c'.total = c.total := by
  obtain ⟨_, rfl⟩ := h
  rfl

theorem prints_print (c : Console) (output : Output) : c.Prints (c.print output) := ⟨_, rfl⟩

theorem prints_say (c : Console) (line : String) : c.Prints (c.say line) := ⟨_, rfl⟩

theorem prints_foldl {α : Type} {f : Console → α → Console} (prints : ∀ c a, Prints c (f c a))
    (c : Console) (items : List α) : c.Prints (items.foldl f c) := by
  induction items generalizing c with
  | nil => exact .refl c
  | cons item items ih => exact (prints c item).trans (ih (f c item))

theorem prints_sayAll (c : Console) (lines : List String) : c.Prints (c.sayAll lines) :=
  prints_foldl prints_say c lines

theorem prints_sayReport (c : Console) (report : PassReport) : c.Prints (c.sayReport report) := by
  have warned : ∀ c : Console, c.Prints (report.diagnostics.foldl
      (fun c d => c.warn ("rule warning: " ++ d.text)) c) := fun c =>
    prints_foldl (fun c _ => prints_print c _) c report.diagnostics
  unfold sayReport
  split
  · exact warned c
  · exact (prints_say c _).trans (warned _)

theorem prints_sayReports (c : Console) (reports : List PassReport) :
    c.Prints (c.sayReports reports) :=
  prints_foldl prints_sayReport c reports

theorem prints_sayRules (c : Console) (library : Library) : c.Prints (c.sayRules library) :=
  (prints_sayAll c _).trans (prints_say _ _)

/-! ## Taking the news -/

/-- The requests that bring the news. -/
def news : List Request := [.takeLines, .takeEvents]

theorem prints_sayNews (c : Console) : { c with game := c.game.served news }.Prints c.sayNews := by
  let asked : Console := { c with game := c.game.served news }
  let shown := asked.sayAll (c.game.takeLines.1.map ("  info: " ++ ·))
  let events := c.game.takeLines.2.takeEvents.1
  have eq : c.sayNews =
      if shown.trace then shown.sayAll (events.map (eventLine shown.round)) else shown := rfl
  rw [eq]
  split
  · exact (prints_sayAll asked _).trans (prints_sayAll shown _)
  · exact prints_sayAll asked _

theorem Prints.sayNews (h : c.Prints c') :
    { c with game := c.game.served news }.Prints c'.sayNews := by
  obtain ⟨printed, rfl⟩ := h
  obtain ⟨printed', eq⟩ := prints_sayNews { c with printed := printed }
  exact ⟨printed', eq⟩

theorem prints_sayTurn (c : Console) (r : TurnRecord) :
    { c with
      game := c.game.served news
      total := r.finished.elim c.total (c.total + ·.score) }.Prints (c.sayTurn r) := by
  have told := ((prints_sayReports c r.reports).trans (prints_say _ (turnLine r))).sayNews
  unfold sayTurn
  cases r.finished with
  | none => exact told
  | some card =>
    obtain ⟨printed, eq⟩ := told
    simp only [eq]
    exact prints_say _ _

/-! ## Requests and books -/

/-- These requests were made of the game, each round that they start was counted, and the score of
each round that they end was added to the total. -/
structure Asked (c : Console) (requests : List Request) (c' : Console) : Prop where
  game : c'.game = c.game.served requests
  round : c'.round.toNat = c.round.toNat + starts requests
  total : c'.total = c.total + Int64.ofInt (c.game.scored requests)

theorem Asked.reached {config : RoundSetup} {requests : List Request} (h : c.Asked requests c')
    (reached : Game.Reached config c.game) : Game.Reached config c'.game := by
  rw [h.game]
  exact reached.served requests

/-- Every move that was made has the property, seen from the game in which it was made. -/
structure Session (P : Game → Move → Prop) (c : Console) (requests : List Request)
    (c' : Console) : Prop extends c.Asked requests c' where
  along : c.game.Along P requests

variable {P : Game → Move → Prop}

theorem Prints.session (h : c.Prints c') : c.Session P [] c' where
  game := h.game
  round := congrArg UInt32.toNat h.round
  total := h.total.trans (Int64.add_zero c.total).symm
  along := trivial

theorem Session.trans {first second : List Request} (h : c.Session P first c')
    (h' : c'.Session P second c'') : c.Session P (first ++ second) c'' := by
  refine ⟨⟨?_, ?_, ?_⟩, ?_⟩
  · rw [h'.game, h.game, Game.served_append]
  · rw [h'.round, h.round, Game.starts_append, Nat.add_assoc]
  · rw [h'.total, h.total, h.game, Game.scored_append, Int64.ofInt_add, Int64.add_assoc]
  · rw [Game.along_append, ← h.game]
    exact ⟨h.along, h'.along⟩

theorem Session.prints {requests : List Request} (h : c.Session P requests c')
    (prints : c'.Prints c'') : c.Session P requests c'' where
  game := prints.game.trans h.game
  round := (congrArg UInt32.toNat prints.round).trans h.round
  total := prints.total.trans h.total
  along := h.along

/-- One move was made, and after it no other. -/
def Does (c : Console) (move : Move) (c' : Console) : Prop :=
  ∃ later, later.filterMap Request.move? = [] ∧ c.Asked (.make move :: later) c'

theorem does_of_served {move : Move} (later : List Request)
    (silent : later.filterMap Request.move? = [])
    (game : c'.game = (c.game.after move).served later)
    (round : c'.round.toNat = c.round.toNat + starts [.make move])
    (total : c'.total = (c.game.scorecard? (.make move)).elim c.total (c.total + ·.score)) :
    c.Does move c' := by
  refine ⟨later, silent, game, ?_, ?_⟩
  · rw [round]
    have split : starts (.make move :: later) = starts [.make move] + starts later :=
      Game.starts_append [.make move] later
    rw [split, Game.starts_of_silent silent]
    rfl
  · rw [total, Game.scored, Game.scorecards, Game.scorecards_of_silent silent, List.append_nil]
    cases c.game.scorecard? (.make move) with
    | none => exact (Int64.add_zero c.total).symm
    | some card => simp

/-- The session of a command that makes one move. -/
structure Command (P : Game → Move → Prop) (c : Console) (move : Move) (requests : List Request)
    (c' : Console) : Prop extends c.Session P requests c' where
  moves : requests.filterMap Request.move? = [move]
  starts : starts requests = starts [.make move]
  left : ∃ lines events, c'.game = { c.game.after move with
    table := { (c.game.after move).table with shown := lines }, events := events }

theorem Does.command {move : Move} (h : c.Does move c') (allowed : P c.game move) :
    ∃ requests, c.Command P move requests c' := by
  obtain ⟨later, silent, asked⟩ := h
  have along : c.game.Along P (.make move :: later) := by
    refine ⟨fun other mem => ?_, Game.along_of_silent silent⟩
    cases mem
    exact allowed
  refine ⟨.make move :: later, ⟨asked, along⟩, ?_, ?_, ?_⟩
  · exact congrArg (move :: ·) silent
  · have split := Game.starts_append [.make move] later
    rw [Game.starts_of_silent silent] at split
    exact split
  · rw [asked.game]
    exact Game.served_of_silent silent

/-! ## The commands -/

variable {config : RoundSetup}

theorem does_start (sound : c.game.Sound config) (room : c.round.toNat + 1 < UInt32.size) :
    c.Does .start c.start := by
  let begun : Console := { c with round := c.round + 1 }
  let dealt : Console :=
    { begun.say ("== round " ++ num begun.round ++ " | rules: " ++ begun.pipeline) with
      game := c.game.start.2 }
  have printed : { dealt with game := dealt.game.served news }.Prints c.start :=
    (prints_sayReports dealt c.game.start.1).sayNews.trans (prints_say _ _)
  refine does_of_served news rfl printed.game ?_ ?_
  · rw [printed.round]
    show (c.round + 1).toNat = c.round.toNat + 1
    rw [UInt32.toNat_add]
    exact Nat.mod_eq_of_lt room
  · rw [printed.total, sound.scorecard?_of_not_play (fun choice => by simp)]
    rfl

theorem does_play (sound : c.game.Sound config) (choice : Choice) :
    c.Does (.play choice) (c.play choice) := by
  let played : Console := { c with game := (c.game.play choice).2 }
  have noStart : starts [.make (.play choice)] = 0 := by simp [starts]
  cases answer : (c.game.play choice).1 with
  | ok record =>
    have printed : { played with
        game := played.game.served news
        total := record.finished.elim c.total (c.total + ·.score) }.Prints (c.play choice) := by
      simp only [play, answer]
      exact prints_sayTurn played record
    refine does_of_served news rfl printed.game (by rw [printed.round, noStart]; rfl) ?_
    rw [printed.total, sound.scorecard?_play (Prod.ext answer rfl)]
  | error refusal =>
    have printed : played.Prints (c.play choice) := by
      simp only [play, answer]
      cases refusal <;> exact prints_say _ _
    refine does_of_served [] rfl printed.game (by rw [printed.round, noStart]; rfl) ?_
    rw [printed.total, sound.scorecard?_of_refused answer]
    rfl

theorem does_reroll (sound : c.game.Sound config) : c.Does .reroll c.reroll := by
  let asked : Console := { c with game := c.game.reroll.2 }
  have ends : c.game.scorecard? (.make .reroll) = none :=
    sound.scorecard?_of_not_play fun choice => by simp
  cases answer : c.game.reroll.1 with
  | ok reports =>
    have printed : { asked with game := asked.game.served news }.Prints c.reroll := by
      simp only [reroll, answer]
      exact (prints_sayReports asked reports).sayNews.trans (prints_say _ _)
    refine does_of_served news rfl printed.game (by rw [printed.round]; rfl) ?_
    rw [printed.total, ends]
    rfl
  | error refusal =>
    have printed : asked.Prints c.reroll := by
      simp only [reroll, answer]
      exact prints_say _ _
    refine does_of_served [] rfl printed.game (by rw [printed.round]; rfl) ?_
    rw [printed.total, ends]
    rfl

theorem toggle_of_unknown {library : Library} {name : String}
    (unknown : library.find? name = none) : c.Prints (c.toggle library name) := by
  simp only [toggle, unknown]
  exact prints_say _ _

theorem does_toggle {library : Library} {name : String} {rule : Rule} (sound : c.game.Sound config)
    (known : library.find? name = some rule) : c.Does (.toggle rule) (c.toggle library name) := by
  let toggled : Console := { c with game := (c.game.toggle rule).2 }
  have ends : c.game.scorecard? (.make (.toggle rule)) = none :=
    sound.scorecard?_of_not_play fun choice => by simp
  have printed :
      { toggled with game := toggled.game.served news }.Prints (c.toggle library name) := by
    simp only [toggle, known]
    cases (c.game.toggle rule).1.1 <;>
      exact ((prints_say toggled _).trans (prints_sayReports _ _)).sayNews.trans (prints_say _ _)
  have noStart : starts [.make (.toggle rule)] = 0 := by simp [starts]
  refine does_of_served news rfl printed.game (by rw [printed.round, noStart]; rfl) ?_
  rw [printed.total, ends]
  rfl

/-! ## From the first console to the last line -/

/-- Nothing has been played or counted yet. -/
structure Fresh (config : RoundSetup) (c : Console) : Prop where
  reached : Game.Reached config c.game
  idle : c.game.stage = .idle
  round : c.round = 0
  total : c.total = 0

/-- Enabling rules starts no round. -/
theorem fresh_console (options : Options) (setup : RoundSetup) (rules : List Rule) :
    (options.console setup rules).Fresh setup where
  reached := (Game.Reached.ofSeed options.seed).run (rules.map .enable)
  idle := by
    have kept : ∀ g : Game, (g.run (rules.map .enable)).stage = g.stage := by
      induction rules with
      | nil => exact fun g => rfl
      | cons rule rules ih => exact fun g => ih (g.enable rule).2
    exact kept (Game.ofSeed setup options.seed)
  round := rfl
  total := rfl

/-- The line that tells the number of rounds and the total. -/
def totalLine (rounds : Nat) (total : Int) : Output :=
  .out ("total over " ++ toString rounds ++ " round(s): " ++ toString total ++ "\n")

theorem printed_close (c : Console) :
    c.close.printed.back? = some (totalLine c.round.toNat c.total.toInt) :=
  Array.back?_push

/-- In the end the number of rounds that were started is printed, and the sum of the scores of the
rounds that ended. -/
theorem Asked.printed_close {requests : List Request} (h : c.Asked requests c')
    (fresh : c.Fresh config) (fits : Saturating.Fits (c.game.scored requests)) :
    c'.close.printed.back? = some (totalLine (starts requests) (c.game.scored requests)) := by
  have rounds : c'.round.toNat = starts requests := by
    rw [h.round, fresh.round]
    exact Nat.zero_add _
  have sum : c'.total.toInt = c.game.scored requests := by
    rw [h.total, fresh.total, Int64.zero_add]
    exact Int64.toInt_ofInt_of_le fits.1 (Int.lt_of_le_sub_one fits.2)
  rw [Console.printed_close, rounds, sum]

end Roshambo.Console
