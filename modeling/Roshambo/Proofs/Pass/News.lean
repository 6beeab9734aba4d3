import Roshambo.Proofs.Pass.Acts
import Roshambo.Proofs.Round.Log

/-!
# The news of a pass

A pass only adds to the events, and only events of its own kind. A card that it reveals is the one
in front of the opponent's hand, its reveal follows the firing of a rule in the same pass, and the
draw order then holds the next draw to the front.
-/
namespace Roshambo

namespace PassSetting

variable {σ : Type} {setting : PassSetting σ}

/-- The events that a pass of this setting can emit. -/
def Emits (setting : PassSetting σ) : Event → Prop
  | .ruleFired phase _ => phase = setting.pass.phase
  | .handMutated _ _ _ _ again => setting.handsOpen = true ∧ again = setting.pass.isRepeat
  | .cardRevealed _ _ => setting.pass.applies .revealNextOpponentCard = true
  | .frontDrawSet _ => setting.pass = .roundStart true
  | .infoShown _ => True
  | _ => False

/-- The events start with the firing of a rule. -/
def Opened (setting : PassSetting σ) (news : List Event) : Prop :=
  ∃ name rest, news = .ruleFired setting.pass.phase name :: rest

theorem Opened.append {news : List Event} (h : setting.Opened news) (more : List Event) :
    setting.Opened (news ++ more) := by
  obtain ⟨name, rest, rfl⟩ := h
  exact ⟨name, rest ++ more, rfl⟩

/-- The news of a pass that finds `front` as the opponent's next card and has come to the draw
order `draw`. -/
structure News (setting : PassSetting σ) (front : Option Choice) (draw : DrawOrder)
    (news : List Event) : Prop where
  emits : ∀ event ∈ news, setting.Emits event
  reveal : ∀ rule card, .cardRevealed rule card ∈ news →
    front = some card ∧ draw.once = true ∧ setting.Opened news

namespace News

variable {front : Option Choice} {draw : DrawOrder} {news more : List Event}

theorem nil : setting.News front draw [] where
  emits := by simp
  reveal := by simp

/-- Events without a reveal are news at any time. -/
theorem append_silent (h : setting.News front draw news)
    (emits : ∀ event ∈ more, setting.Emits event)
    (silent : ∀ rule card, .cardRevealed rule card ∉ more) :
    setting.News front draw (news ++ more) where
  emits := by
    intro event mem
    rcases List.mem_append.1 mem with old | new
    · exact h.emits event old
    · exact emits event new
  reveal := by
    intro rule card mem
    rcases List.mem_append.1 mem with old | new
    · obtain ⟨shown, once, opened⟩ := h.reveal rule card old
      exact ⟨shown, once, opened.append more⟩
    · exact absurd new (silent rule card)

theorem keepFront (h : setting.News front draw news) : setting.News front draw.keepFront news :=
  ⟨h.emits, h.reveal⟩

/-- Once a rule has fired the card in front may be revealed. -/
theorem append_reveal (h : setting.News front draw news)
    (opened : setting.Opened news)
    (reveals : setting.pass.applies .revealNextOpponentCard = true) (rule : String)
    (shown : ∀ event ∈ more, ∃ card, front = some card ∧ event = .cardRevealed rule card) :
    setting.News front draw.frontOnce (news ++ more) := by
  refine ⟨fun event mem => ?_, fun rule' card mem => ?_⟩
  · rcases List.mem_append.1 mem with old | new
    · exact h.emits event old
    · obtain ⟨card, _, rfl⟩ := shown event new
      exact reveals
  · refine ⟨?_, rfl, opened.append more⟩
    rcases List.mem_append.1 mem with old | new
    · exact (h.reveal rule' card old).1
    · obtain ⟨card', inFront, same⟩ := shown _ new
      cases same
      exact inFront

/-- The log tells in which pass a card was revealed. -/
theorem lastPhase_eq (h : setting.News front draw news) {before after : List Event} {rule : String}
    {card : Choice} (eq : news = before ++ .cardRevealed rule card :: after) :
    Log.lastPhase before = some setting.pass.phase := by
  have mem : Event.cardRevealed rule card ∈ news := by simp [eq]
  obtain ⟨_, _, name, rest, opened⟩ := h.reveal rule card mem
  cases before with
  | nil => simp [opened] at eq
  | cons first before =>
    obtain ⟨rfl, -⟩ := List.cons.inj (opened.symm.trans eq)
    have fired : (Log.lastPhase (.ruleFired setting.pass.phase name :: before)).isSome := by
      simp [Log.lastPhase, Event.firedPhase?]
    obtain ⟨phase, found⟩ := Option.isSome_iff_exists.1 fired
    obtain ⟨event, mem, own⟩ := List.exists_of_findSome?_eq_some found
    have emitted := h.emits event (by rw [eq]; exact List.mem_append_left _ (List.mem_reverse.1 mem))
    cases event with
    | ruleFired phase' _ =>
      rw [found, ← Option.some.inj own]
      exact congrArg some emitted
    | _ => simp [Event.firedPhase?] at own

theorem revealsIn (h : setting.News front draw news) :
    Log.RevealsIn setting.pass.phase (fun card => front = some card ∧ draw.once = true) news := by
  intro before rule card after eq
  obtain ⟨shown, once, _⟩ := h.reveal rule card (by simp [eq])
  exact ⟨h.lastPhase_eq eq, shown, once⟩

theorem withinTurn (h : setting.News front draw news) : Log.WithinTurn news := by
  intro event mem
  have emits := h.emits event mem
  cases event <;> simp_all [Emits, Event.drawn?, Event.startsRound]

/-- A pass that does not look at the opponent's next card reveals none. -/
theorem quiet (h : setting.News front draw news)
    (silent : setting.pass.applies .revealNextOpponentCard = false) : Log.Quiet news := by
  intro event mem
  refine ⟨?_, (h.withinTurn event mem).1⟩
  have emits := h.emits event mem
  cases event with
  | cardRevealed rule card => exact absurd (silent.symm.trans emits) Bool.false_ne_true
  | _ => rfl

end News

/-- The events of a pass grow by news, as long as it does not look at hands that it may change. -/
theorem news_applyRules {front : Option Choice} {start : List Event}
    (blind : setting.handsOpen = true → setting.pass.applies .revealNextOpponentCard = false)
    (rules : List Rule) {s : PassState σ}
    (hf : setting.handsOpen = false → setting.host.firstCard s.host .opponent = front)
    (hs : s.events = start) :
    ∃ news, (setting.applyRules rules s).events = start ++ news ∧
      setting.News front (setting.applyRules rules s).draw news := by
  let Q (s : PassState σ) (told : List Event → Prop) : Prop :=
    (setting.handsOpen = false → setting.host.firstCard s.host .opponent = front) ∧
      ∃ news, s.events = start ++ news ∧ setting.News front s.draw news ∧ told news
  have carries : setting.Carries (fun s => Q s fun news => news = [] ∨ setting.Opened news)
      (fun s => Q s setting.Opened) :=
    { report := fun _ _ hs => hs
      rest := fun _ _ hs => hs
      done := by
        rintro s ⟨hf, news, eq, told, opened⟩
        exact ⟨hf, news, eq, told, .inr opened⟩
      fire := by
        rintro s name ⟨hf, news, eq, told, opened⟩
        refine ⟨hf, news ++ [.ruleFired setting.pass.phase name], ?_, ?_, ?_⟩
        · simp [PassState.emit, eq]
        · exact told.append_silent (by simp [Emits]) (by simp)
        · rcases opened with rfl | opened
          · exact ⟨name, [], rfl⟩
          · exact opened.append _
      perform := by
        rintro rule effect s applies ⟨hf, news, eq, told, opened⟩
        rcases setting.perform_cases rule effect s with ⟨_, _, _, h⟩ |
          ⟨isOpen, more, _, mutations, h⟩ | ⟨initial, h⟩ | ⟨reveal, _, more, _, shown, h⟩ <;>
          rw [h]
        · exact ⟨hf, news, eq, told, opened⟩
        · refine ⟨fun closed => absurd (isOpen.symm.trans closed) (by decide), news ++ more,
            by simp [eq], told.append_silent ?_ ?_, opened.append more⟩
          · intro event mem
            obtain ⟨_, _, _, rfl⟩ := mutations event mem
            exact ⟨isOpen, rfl⟩
          · intro rule' card mem
            obtain ⟨_, _, _, same⟩ := mutations _ mem
            cases same
        · exact ⟨hf, news ++ [.frontDrawSet rule], by simp [eq],
            (told.append_silent (by simpa [Emits] using initial) (by simp)).keepFront,
            opened.append _⟩
        · subst reveal
          have closed : setting.handsOpen = false :=
            Bool.eq_false_iff.2 fun isOpen => absurd applies (Bool.eq_false_iff.1 (blind isOpen))
          exact ⟨hf, news ++ more, by simp [eq],
            told.append_reveal opened applies rule (hf closed ▸ shown),
            opened.append more⟩ }
  obtain ⟨-, news, eq, told, -⟩ :=
    carries.applyRules rules ⟨hf, [], by simp [hs], .nil, .inl rfl⟩
  exact ⟨news, eq, told⟩

theorem showLine_events (s : PassState σ) :
    (setting.showLine s).events = s.events ++ s.context.info.toList.map .infoShown := by
  unfold showLine
  split
  · rename_i text info
    simp [info, PassState.emit]
  · rename_i info
    simp [info]

end PassSetting

namespace Referee

variable {σ : Type} (ref : Referee) (setting : PassSetting σ)

/-- The events of the referee grow by the news of the pass. -/
theorem news_evaluate
    (blind : setting.handsOpen = true → setting.pass.applies .revealNextOpponentCard = false)
    (ctx : Context) (state : σ) :
    ∃ news, (ref.evaluate setting ctx state).referee.events = ref.events ++ news ∧
      setting.News (setting.host.firstCard state .opponent)
        (ref.evaluate setting ctx state).referee.draw news := by
  obtain ⟨news, eq, told⟩ := PassSetting.news_applyRules blind ref.active.rules
    (s := ref.passStart ctx state) (fun _ => rfl) rfl
  have shown := setting.showLine_events
    (setting.applyRules ref.active.rules (ref.passStart ctx state))
  rw [eq, List.append_assoc] at shown
  refine ⟨_, shown, ?_⟩
  rw [evaluate_draw]
  exact told.append_silent (by simp [PassSetting.Emits]) (by simp)

/-- What a pass of this setting does to the referee that runs it. -/
structure Hears (front : Option Choice) (ref' : Referee) : Prop where
  active : ref'.active = ref.active
  gate : ref'.gate = ref.gate
  always : setting.pass ≠ .roundStart true → ref'.draw.always = ref.draw.always
  once : ref.draw.once = true → ref'.draw.once = true
  draw : setting.pass ≠ .roundStart true →
    setting.pass.applies .revealNextOpponentCard = false → ref'.draw = ref.draw
  tally : .modifyPlannedTurnsDelta ∉ setting.pass.effectKinds → ref'.tally = ref.tally
  news : ∃ news, ref'.events = ref.events ++ news ∧ setting.News front ref'.draw news

theorem hears_evaluate
    (blind : setting.handsOpen = true → setting.pass.applies .revealNextOpponentCard = false)
    (ctx : Context) (state : σ) :
    ref.Hears setting (setting.host.firstCard state .opponent)
      (ref.evaluate setting ctx state).referee where
  active := rfl
  gate := rfl
  always := ref.always_evaluate setting ctx state
  once := by
    intro pending
    exact ref.draw_evaluate setting ctx state (R := fun draw => draw.once = true) pending
      (fun _ _ same => same) (fun _ _ _ => rfl)
  draw := by
    intro later silent
    refine ref.draw_evaluate setting ctx state (R := fun draw => draw = ref.draw) rfl
      (fun initial => absurd initial later) (fun reveals => ?_)
    exact absurd (silent.symm.trans reveals) Bool.false_ne_true
  tally := ref.tally_evaluate_of_unplanned setting ctx state
  news := ref.news_evaluate setting blind ctx state

theorem quiet_evaluate (silent : setting.pass.applies .revealNextOpponentCard = false)
    (ctx : Context) (state : σ) :
    ∃ news, (ref.evaluate setting ctx state).referee.events = ref.events ++ news ∧
      Log.Quiet news ∧ Log.WithinTurn news := by
  obtain ⟨news, eq, told⟩ := ref.news_evaluate setting (fun _ => silent) ctx state
  exact ⟨news, eq, told.quiet silent, told.withinTurn⟩

end Referee

end Roshambo
