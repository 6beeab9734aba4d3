import Roshambo.Proofs.Console.Bookkeeping

/-!
# Interactive runs

A line asks for at most one move, and it is made while a round is active. A round is started only
when the one before it is finished, and never beyond the limit. Lines are answered one after another
until one asks to leave, none is left, or all rounds are finished (`Obeys`, `Plays`). So whatever
lines are entered, a run ends either with all its rounds finished or with its last one active, and
the total is made of the finished ones.
-/
namespace Roshambo.Console

open Game (starts)

/-- The move that a line asks for. -/
def moveOf (library : Library) (line : String) : Option Move :=
  match Text.words line with
  | [] => none
  | command :: rest =>
    match command with
    | "toggle" | "t" => (library.find? (" ".intercalate rest)).map .toggle
    | "reroll" => some .reroll
    | other => (Choice.ofKeyword? other).map .play

/-- The line asks to leave. -/
def Quits (line : String) : Prop :=
  ∃ command ∈ (Text.words line).head?, command ∈ ["quit", "exit", "q"]

/-- The moves among the requests that start no round. -/
def commands (requests : List Request) : List Move :=
  (requests.filterMap Request.move?).filter (· ≠ .start)

theorem commands_append (first second : List Request) :
    commands (first ++ second) = commands first ++ commands second := by
  simp [commands]

variable {config : RoundSetup} {c c' c'' : Console}

/-! ## One line -/

/-- A console answers by printing, or by the move that it was asked for. -/
inductive Answers (c : Console) : Option Move → Console → Prop where
  | printed {c' : Console} (h : c.Prints c') : Answers c none c'
  | moved {move : Move} {c' : Console} (other : move ≠ .start) (h : c.Does move c') :
      Answers c (some move) c'

theorem answers_toggle (library : Library) (name : String) (sound : c.game.Sound config) :
    c.Answers ((library.find? name).map .toggle) (c.toggle library name) := by
  cases found : library.find? name with
  | none => exact .printed (toggle_of_unknown found)
  | some rule => exact .moved (by simp) (does_toggle sound found)

theorem answers_answer {library : Library} {line : String} (sound : c.game.Sound config)
    (answered : c.answer library line = some c') : c.Answers (moveOf library line) c' := by
  cases words : Text.words line with
  | nil =>
    simp only [answer, words, Option.some.injEq] at answered
    simp only [moveOf, words]
    exact answered ▸ .printed (.refl c)
  | cons command rest =>
    simp only [answer, words] at answered
    simp only [moveOf, words]
    split at answered
    case h_1 | h_2 | h_3 =>
      cases answered
      exact .printed (prints_sayAll c helpLines)
    case h_4 | h_5 | h_6 => cases answered
    case h_7 =>
      cases answered
      exact .printed (prints_say c (stateLine c.game.table))
    case h_8 =>
      cases answered
      exact .printed (prints_sayRules c library)
    case h_9 | h_10 =>
      cases answered
      exact answers_toggle library _ sound
    case h_11 =>
      cases answered
      exact .moved (by simp) (does_reroll sound)
    case h_12 =>
      split
      case h_1 | h_2 | h_3 => contradiction
      cases known : Choice.ofKeyword? command with
      | none =>
        simp only [known] at answered
        cases answered
        exact .printed (prints_say c _)
      | some choice =>
        simp only [known] at answered
        cases answered
        exact .moved (by simp) (does_play sound choice)

/-- Lines that ask to leave are the only ones without an answer. -/
theorem answer_eq_none_iff {library : Library} {line : String} :
    c.answer library line = none ↔ Quits line := by
  unfold answer Quits
  cases Text.words line with
  | nil => simp
  | cons command rest =>
    simp only [List.head?_cons, Option.mem_some_iff, exists_eq_left']
    split
    case h_12 => cases known : Choice.ofKeyword? command <;> simp_all
    all_goals simp

/-- While a round is active, a line makes the move that it asks for, and that starts no round. -/
theorem Answers.session {move : Option Move} (h : c.Answers move c')
    (active : c.game.stage = .active) :
    ∃ requests, c.Session Game.InTurn requests c' ∧ commands requests = move.toList ∧
      c'.round = c.round := by
  cases h with
  | printed h => exact ⟨[], h.session, rfl, h.round⟩
  | @moved move _ other h =>
    have inTurn : c.game.InTurn move := iff_of_false other (not_not_intro active)
    obtain ⟨requests, command⟩ := h.command inTurn
    refine ⟨requests, command.toSession, ?_, UInt32.toNat_inj.1 ?_⟩
    · rw [commands, command.moves]
      simp [other]
    · rw [command.round, command.starts]
      simp [starts, other]

/-! ## Making ready -/

/-- A console that is ready for a line has an active round within the limit. -/
structure Ready (c : Console) (rounds : UInt32) (requests : List Request) (c' : Console) : Prop
    extends c.Session Game.InTurn requests c' where
  commands : commands requests = []
  active : c'.game.stage = .active
  within : c'.round ≤ rounds

theorem Ready.prints {rounds : UInt32} {requests : List Request} (h : c.Ready rounds requests c')
    (prints : c'.Prints c'') : c.Ready rounds requests c'' where
  toSession := h.toSession.prints prints
  commands := h.commands
  active := by
    rw [prints.game]
    exact h.active
  within := by
    rw [prints.round]
    exact h.within

theorem ready_start {rounds : UInt32} (sound : c.game.Sound config)
    (resting : c.game.stage ≠ .active) (less : c.round < rounds) :
    ∃ requests, c.Ready rounds requests c.start := by
  have room : c.round.toNat + 1 < UInt32.size :=
    Nat.lt_of_le_of_lt (UInt32.lt_iff_toNat_lt.1 less) rounds.toNat_lt
  have inTurn : c.game.InTurn .start := iff_of_true rfl resting
  obtain ⟨requests, command⟩ := (does_start sound room).command inTurn
  refine ⟨requests, command.toSession, ?_, ?_, ?_⟩
  · rw [Console.commands, command.moves]
    rfl
  · obtain ⟨lines, events, left⟩ := command.left
    rw [left]
    exact (Game.started_start sound.queue).stage
  · rw [UInt32.le_iff_toNat_le, command.round, command.starts]
    exact UInt32.lt_iff_toNat_lt.1 less

/-- After the welcome the first round has been started. -/
theorem Fresh.ready_welcome {rounds : UInt32} (fresh : c.Fresh config) (positive : 1 ≤ rounds) :
    ∃ requests, c.Ready rounds requests c.welcome := by
  have helped := (prints_sayAll c helpLines).session (P := Game.InTurn)
  have resting : (c.sayAll helpLines).game.stage ≠ .active := by
    rw [helped.game]
    simp [fresh.idle]
  have less : (c.sayAll helpLines).round < rounds := by
    rw [(prints_sayAll c helpLines).round, fresh.round]
    exact positive
  obtain ⟨requests, started⟩ := ready_start (helped.reached fresh.reached).sound resting less
  exact ⟨[] ++ requests, helped.trans started.toSession, started.commands, started.active,
    started.within⟩

theorem ready_cases {rounds : UInt32} (sound : c.game.Sound config)
    (begun : c.game.stage ≠ .idle) (within : c.round ≤ rounds) :
    (c.ready rounds = .ended .closed c.close ∧ c.game.stage = .finished ∧ c.round = rounds) ∨
      ∃ requests c', c.ready rounds = .waiting c' ∧ c.Ready rounds requests c' := by
  cases stage : c.game.stage with
  | idle => exact absurd stage begun
  | active =>
    refine .inr ⟨[], c.print (.out "> "), ?_, (prints_print c _).session, rfl, stage, within⟩
    simp [ready, stage]
  | finished =>
    by_cases full : rounds ≤ c.round
    · refine .inl ⟨?_, rfl, UInt32.le_antisymm within full⟩
      simp [ready, stage, full]
    · have resting : c.game.stage ≠ .active := by simp [stage]
      obtain ⟨requests, h⟩ := ready_start sound resting (UInt32.not_le.1 full)
      refine .inr ⟨requests, _, ?_, h.prints (prints_print c.start (.out "> "))⟩
      simp [ready, stage, full]

/-! ## All lines -/

/-- The requests answer the lines one after another: but for the starts of rounds they make the
moves that the lines ask for. None of the lines asks to leave, and each finds a round active. -/
structure Obeys (library : Library) (g : Game) (lines : List String) (requests : List Request) :
    Prop where
  commanded : commands requests = lines.filterMap (moveOf library)
  stays : ∀ line ∈ lines, ¬ Quits line
  active : ∀ earlier line later, lines = earlier ++ line :: later →
    ∃ before after, requests = before ++ after ∧
      commands before = earlier.filterMap (moveOf library) ∧ (g.served before).stage = .active

theorem obeys_nil {library : Library} {g : Game} {requests : List Request}
    (silent : commands requests = []) : Obeys library g [] requests where
  commanded := silent
  stays := by simp
  active := by simp

theorem filterMap_moveOf_cons (library : Library) (line : String) (lines : List String) :
    (line :: lines).filterMap (moveOf library) =
      (moveOf library line).toList ++ lines.filterMap (moveOf library) := by
  cases moved : moveOf library line <;> simp [moved]

/-- Requests in front that make no move but starts. -/
theorem Obeys.after {library : Library} {g : Game} {opening requests : List Request}
    {lines : List String} (silent : commands opening = [])
    (h : Obeys library (g.served opening) lines requests) :
    Obeys library g lines (opening ++ requests) where
  commanded := by rw [commands_append, silent, h.commanded, List.nil_append]
  stays := h.stays
  active earlier line later split := by
    obtain ⟨before, after, rfl, asked, active⟩ := h.active earlier line later split
    refine ⟨opening ++ before, after, by simp, ?_, ?_⟩
    · rw [commands_append, silent, asked, List.nil_append]
    · rwa [Game.served_append]

/-- One more line in front, and the requests that answer it. -/
theorem Obeys.cons {library : Library} {g : Game} {requests later : List Request} {line : String}
    {lines : List String} (active : g.stage = .active) (stays : ¬ Quits line)
    (commanded : commands requests = (moveOf library line).toList)
    (h : Obeys library (g.served requests) lines later) :
    Obeys library g (line :: lines) (requests ++ later) where
  commanded := by rw [commands_append, commanded, h.commanded, filterMap_moveOf_cons]
  stays := List.forall_mem_cons.2 ⟨stays, h.stays⟩
  active := by
    rintro (_ | ⟨first, earlier⟩) next rest split
    · exact ⟨[], requests ++ later, rfl, rfl, active⟩
    · obtain ⟨rfl, split'⟩ := List.cons_eq_cons.1 split
      obtain ⟨before, after, rfl, asked, active'⟩ := h.active earlier next rest split'
      refine ⟨requests ++ before, after, by simp, ?_, ?_⟩
      · rw [commands_append, commanded, asked, filterMap_moveOf_cons]
      · rwa [Game.served_append]

/-- The run answered these lines and not the rest, and ended with the closing line: all rounds were
finished, or in an active one there was no line left or the next asked to leave. -/
def Plays (c : Console) (library : Library) (rounds : UInt32) (answered rest : List String)
    (result : Ending × Console) : Prop :=
  ∃ requests c', result = (.closed, c'.close) ∧ c.Session Game.InTurn requests c' ∧
    Obeys library c.game answered requests ∧ c'.round ≤ rounds ∧
    (c'.game.stage = .finished ∧ c'.round = rounds ∨
      c'.game.stage = .active ∧ ∀ line ∈ rest.head?, Quits line)

theorem plays_of_full {library : Library} {rounds : UInt32} (rest : List String)
    (finished : c.game.stage = .finished) (full : c.round = rounds) :
    c.Plays library rounds [] rest (.closed, c.close) :=
  ⟨[], c, rfl, (Prints.refl c).session, obeys_nil rfl, full ▸ UInt32.le_refl _,
    .inl ⟨finished, full⟩⟩

theorem Ready.plays {library : Library} {rounds : UInt32} {rest : List String}
    {requests : List Request} (h : c.Ready rounds requests c')
    (leaves : ∀ line ∈ rest.head?, Quits line) :
    c.Plays library rounds [] rest (.closed, c'.close) :=
  ⟨requests, c', rfl, h.toSession, obeys_nil h.commands, h.within, .inr ⟨h.active, leaves⟩⟩

/-- A line that was answered, before a run over the lines behind it. -/
theorem Ready.plays_cons {library : Library} {rounds : UInt32} {requests more : List Request}
    {line : String} {answered rest : List String} {result : Ending × Console}
    (h : c.Ready rounds requests c') (session : c'.Session Game.InTurn more c'')
    (stays : ¬ Quits line) (commanded : Console.commands more = (moveOf library line).toList)
    (plays : c''.Plays library rounds answered rest result) :
    c.Plays library rounds (line :: answered) rest result := by
  obtain ⟨later, last, closed, played, obeys, within, ended⟩ := plays
  rw [session.game] at obeys
  have answers := obeys.cons h.active stays commanded
  rw [h.game] at answers
  exact ⟨requests ++ (more ++ later), last, closed, h.toSession.trans (session.trans played),
    answers.after h.commands, within, ended⟩

theorem plays_interact (library : Library) {rounds : UInt32} (lines : List String)
    (reached : Game.Reached config c.game) (begun : c.game.stage ≠ .idle)
    (within : c.round ≤ rounds) :
    ∃ answered rest, lines = answered ++ rest ∧
      c.Plays library rounds answered rest (c.interact library rounds (lines.map some)) := by
  induction lines generalizing c with
  | nil =>
    refine ⟨[], [], rfl, ?_⟩
    rcases ready_cases reached.sound begun within with ⟨ended, finished, full⟩ |
      ⟨requests, c', waiting, h⟩
    · rw [interact_of_ended ended]
      exact plays_of_full [] finished full
    · rw [List.map_nil, interact, waiting]
      exact h.plays (by simp)
  | cons line lines ih =>
    rcases ready_cases reached.sound begun within with ⟨ended, finished, full⟩ |
      ⟨requests, c', waiting, h⟩
    · refine ⟨[], line :: lines, rfl, ?_⟩
      rw [interact_of_ended ended]
      exact plays_of_full _ finished full
    · have reached' := h.reached reached
      cases answered : c'.answer library line with
      | none =>
        refine ⟨[], line :: lines, rfl, ?_⟩
        rw [List.map_cons, interact_cons_of_quit waiting answered]
        exact h.plays (by simpa using answer_eq_none_iff.1 answered)
      | some c'' =>
        have stays : ¬ Quits line := fun quits => by
          rw [answer_eq_none_iff.2 quits] at answered
          cases answered
        obtain ⟨more, session, commanded, round⟩ :=
          (answers_answer reached'.sound answered).session h.active
        have begun' : c''.game.stage ≠ .idle := by
          rw [session.game]
          exact reached'.stage_served_ne_idle (by simp [h.active]) more
        obtain ⟨front, rest, split, plays⟩ :=
          ih (session.reached reached') begun' (round ▸ h.within)
        refine ⟨line :: front, rest, congrArg (line :: ·) split, ?_⟩
        rw [List.map_cons, interact_cons_of_answer waiting answered]
        exact h.plays_cons session stays commanded plays

/-- An interactive run that answered these lines and not the rest: its requests, and the console in
the end. Rounds are started when none is active; all other moves are those that the lines ask for. -/
structure InteractiveRun (c : Console) (library : Library) (rounds : UInt32)
    (answered rest : List String) (requests : List Request) (c' : Console) : Prop
    extends c.Session Game.InTurn requests c', Obeys library c.game answered requests where
  within : starts requests ≤ rounds.toNat
  /-- Every round is finished and there are no more, or all are but the last, which is active: then
  no line is left, or the next one asks to leave. -/
  ended : (c'.game.stage = .finished ∧ starts requests = rounds.toNat ∧
      (c.game.scorecards requests).length = starts requests) ∨
    (c'.game.stage = .active ∧ (c.game.scorecards requests).length + 1 = starts requests ∧
      ∀ line ∈ rest.head?, Quits line)
  lastLine : Saturating.Fits (c.game.scored requests) →
    c'.printed.back? = some (totalLine (starts requests) (c.game.scored requests))

/-- Whatever lines are entered, the books of an interactive run are right. -/
theorem interactiveRun_accounts (options : Options) (setup : RoundSetup) (rules : List Rule)
    (library : Library) {rounds : UInt32} (positive : 1 ≤ rounds) (lines : List String) :
    ((options.console setup rules).interactiveRun library rounds (lines.map some)).1 = .closed ∧
      ∃ answered rest requests, lines = answered ++ rest ∧
        (options.console setup rules).InteractiveRun library rounds answered rest requests
          ((options.console setup rules).interactiveRun library rounds (lines.map some)).2 := by
  have fresh := fresh_console options setup rules
  generalize options.console setup rules = c at fresh
  obtain ⟨opening, ready⟩ := fresh.ready_welcome positive
  have begun : c.welcome.game.stage ≠ .idle := by simp [ready.active]
  obtain ⟨answered, rest, split, later, c', result, played, obeys, within, ended⟩ :=
    plays_interact library lines (ready.reached fresh.reached) begun ready.within
  rw [ready.game] at obeys
  have session := ready.toSession.trans played
  have started : c'.round.toNat = starts (opening ++ later) := by
    rw [session.round, fresh.round]
    exact Nat.zero_add _
  have balance := fresh.reached.starts_add_inPlay session.along
  rw [← session.game] at balance
  rw [interactiveRun, result]
  refine ⟨rfl, answered, rest, opening ++ later, split, ⟨session.prints (prints_say c' _),
    obeys.after ready.commands, ?_, ?_, fun fits => session.printed_close fresh fits⟩⟩
  · rw [← started]
    exact UInt32.le_iff_toNat_le.1 within
  · rcases ended with ⟨finished, full⟩ | ⟨active, leaves⟩
    · refine .inl ⟨finished, by rw [← started, full], ?_⟩
      simpa [Game.inPlay, fresh.idle, finished] using balance.symm
    · refine .inr ⟨active, ?_, leaves⟩
      simpa [Game.inPlay, fresh.idle, active] using balance.symm

/-- A round is played to its end, with lines in between that do nothing, and the second is left. -/
theorem interactiveRun_accounts_two_rounds :
    let lines := ["reroll", "rock", "", "dance", "toggle Bet", "rock", "paper", "paper", "scissors",
      "scissors", "quit", "rock"]
    (1 : UInt32) ≤ 2 ∧ ∃ answered rest requests c', lines = answered ++ rest ∧
      (Options.console {} .standard []).interactiveRun ⟨[]⟩ 2 (lines.map some) = (.closed, c') ∧
      (Options.console {} .standard []).InteractiveRun ⟨[]⟩ 2 answered rest requests c' ∧
      starts requests = 2 ∧ c'.printed.back? = some (totalLine 2 8) := by
  intro lines
  have accounts := interactiveRun_accounts {} .standard [] ⟨[]⟩ (by decide : (1 : UInt32) ≤ 2) lines
  obtain ⟨result, eq⟩ : ∃ result,
      (Options.console {} .standard []).interactiveRun ⟨[]⟩ 2 (lines.map some) = result := ⟨_, rfl⟩
  have books : result.2.round = 2 ∧ result.2.total = 8 ∧ result.2.game.stage = .active := by
    rw [← eq]
    decide +kernel
  rw [eq] at accounts ⊢
  obtain ⟨ending, c'⟩ := result
  obtain ⟨round, total, active⟩ := books
  obtain ⟨rfl, answered, rest, requests, split, run⟩ := accounts
  have started : starts requests = 2 := by
    have count := run.round
    rw [round] at count
    exact (Nat.zero_add _).symm.trans count.symm
  have one : ((Options.console {} .standard []).game.scorecards requests).length = 1 := by
    rcases run.ended with ⟨finished, -⟩ | ⟨-, balance, -⟩
    · rw [active] at finished
      cases finished
    · omega
  obtain ⟨card, cards⟩ := List.length_eq_one_iff.1 one
  -- There is one score, and it is a word.
  have scored : (Options.console {} .standard []).game.scored requests = card.score.toInt := by
    simp [Game.scored, cards]
  have eight : card.score = 8 := by
    have sum := run.total
    rw [total, scored, Int64.ofInt_toInt] at sum
    exact (Int64.zero_add card.score).symm.trans sum.symm
  have line := run.lastLine (by rw [scored, eight]; decide)
  rw [started, scored, eight] at line
  exact ⟨by decide, answered, rest, requests, c', split, rfl, run, started, line⟩

end Roshambo.Console
