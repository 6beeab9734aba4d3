import Roshambo.Proofs.Pass.Past

/-!
# Passes in a mirror

If a map takes the states of one host to those of another, operation by operation, a pass over the
first is taken to the pass over the second, whatever was reported before. `ActAlike` compares two
lists of rules in the same way, diagnostics apart, and lists that act alike may stand for each other
within longer ones.
-/
namespace Roshambo

variable {σ τ : Type}

/-- `f` takes the states of a host to those of another, along with every operation of a pass. -/
structure Host.Maps (f : σ → τ) (host : Host σ) (host' : Host τ) : Prop where
  countOf : ∀ s, host'.countOf (f s) = host.countOf s
  firstCard : ∀ s, host'.firstCard (f s) = host.firstCard s
  lastCard : ∀ s, host'.lastCard (f s) = host.lastCard s
  replaceOthers : ∀ s choice count,
    host'.replaceOthers (f s) choice count = (host.replaceOthers s choice count).map id f
  replaceRandomly : ∀ s choice count,
    host'.replaceRandomly (f s) choice count = (host.replaceRandomly s choice count).map id f
  addCards : ∀ s side choice count,
    host'.addCards (f s) side choice count = (host.addCards s side choice count).map id f
  addRandomCards : ∀ s side count,
    host'.addRandomCards (f s) side count = (host.addRandomCards s side count).map id f
  movePlan : ∀ s delta, host'.movePlan (f s) delta = (host.movePlan s delta).map id f
  showInfo : ∀ s text, host'.showInfo (f s) text = f (host.showInfo s text)

theorem Host.Maps.mapsIn {f : σ → τ} {host : Host σ} {host' : Host τ} (maps : host.Maps f host')
    (pass : Pass) (handsOpen : Bool) : host.MapsIn pass handsOpen f host' :=
  { maps with
    lastCard := fun _ => maps.lastCard
    replaceOthers := fun _ => maps.replaceOthers
    replaceRandomly := fun _ => maps.replaceRandomly
    addCards := fun _ => maps.addCards
    addRandomCards := fun _ => maps.addRandomCards }

theorem Host.Maps.id (host : Host σ) : host.Maps id host where
  countOf _ := rfl
  firstCard _ := rfl
  lastCard _ := rfl
  replaceOthers _ _ _ := rfl
  replaceRandomly _ _ _ := rfl
  addCards _ _ _ _ := rfl
  addRandomCards _ _ _ := rfl
  movePlan _ _ := rfl
  showInfo _ _ := rfl

namespace PassState

/-- The state over another host, with these diagnostics. -/
def image (f : σ → τ) (found : List Diagnostic) (s : PassState σ) : PassState τ :=
  { s with host := f s.host, diagnostics := found }

/-- The second state is the first one with its host seen through `f`. Diagnostics may differ. -/
def Mirrors (f : σ → τ) (s : PassState σ) (s' : PassState τ) : Prop :=
  ∃ found, s' = s.image f found

variable {f : σ → τ} {s : PassState σ} {s' : PassState τ}

theorem Mirrors.refl (s : PassState σ) : s.Mirrors id s := ⟨s.diagnostics, rfl⟩

theorem Mirrors.trans {s₁ s₂ : PassState σ} (h : s₁.Mirrors id s₂) (h' : s₂.Mirrors f s') :
    s₁.Mirrors f s' := by
  obtain ⟨_, rfl⟩ := h
  obtain ⟨found, rfl⟩ := h'
  exact ⟨found, rfl⟩

/-- One state on top of two pasts that differ in their diagnostics. -/
theorem mirrors_onto (past : Past) (found : List Diagnostic) (s : PassState σ) :
    (s.onto past id).Mirrors f (s.onto { past with diagnostics := found } f) := ⟨_, rfl⟩

theorem Mirrors.exists_onto (h : s.Mirrors f s') :
    ∃ (begun : PassState σ) (past : Past) (found : List Diagnostic),
      s = begun.onto past id ∧ s' = begun.onto { past with diagnostics := found } f := by
  obtain ⟨found, rfl⟩ := h
  refine ⟨{ s with diagnostics := [] }, ⟨{}, s.tally.granted, [], s.diagnostics⟩, found, ?_, ?_⟩ <;>
    simp [onto, image, DrawOrder.join]

end PassState

open PassState

namespace PassSetting

variable {f : σ → τ} {host : Host σ} {host' : Host τ} {pass : Pass} {handsOpen : Bool}
  {s : PassState σ} {s' : PassState τ}

theorem mirrors_performTags (maps : host.Maps f host') (rule : String) (tags : List Tag)
    (h : s.Mirrors f s') :
    (tags.foldl (fun s tag => performTag ⟨host, pass, handsOpen⟩ rule tag s) s).Mirrors f
      (tags.foldl (fun s tag => performTag ⟨host', pass, handsOpen⟩ rule tag s) s') := by
  obtain ⟨begun, past, found, rfl, rfl⟩ := h.exists_onto
  rw [performTags_onto _ (.id pass handsOpen host), performTags_onto _ (maps.mapsIn pass handsOpen)]
  exact mirrors_onto past found _

/-- The same verdict comes of the answers of either host. -/
theorem verdict_of_mirrors (maps : host.Maps f host') (rule : Rule) (h : s.Mirrors f s') :
    rule.verdict host' s'.host s'.context pass = rule.verdict host s.host s.context pass := by
  obtain ⟨found, rfl⟩ := h
  exact verdict_onto ⟨{}, 0, [], []⟩ (maps.mapsIn pass false) rule s

theorem mirrors_applyRules (maps : host.Maps f host') (rules : List Rule) (h : s.Mirrors f s') :
    (applyRules ⟨host, pass, handsOpen⟩ rules s).Mirrors f
      (applyRules ⟨host', pass, handsOpen⟩ rules s') := by
  obtain ⟨begun, past, found, rfl, rfl⟩ := h.exists_onto
  rw [applyRules_onto _ (.id pass handsOpen host), applyRules_onto _ (maps.mapsIn pass handsOpen)]
  exact mirrors_onto past found _

theorem mirrors_applyRule (maps : host.Maps f host') (rule : Rule) (h : s.Mirrors f s') :
    (applyRule ⟨host, pass, handsOpen⟩ rule s).Mirrors f
      (applyRule ⟨host', pass, handsOpen⟩ rule s') :=
  mirrors_applyRules maps [rule] h

theorem mirrors_showLine (maps : host.Maps f host') (h : s.Mirrors f s') :
    (showLine ⟨host, pass, handsOpen⟩ s).Mirrors f (showLine ⟨host', pass, handsOpen⟩ s') := by
  obtain ⟨begun, past, found, rfl, rfl⟩ := h.exists_onto
  rw [showLine_onto _ (.id pass handsOpen host), showLine_onto _ (maps.mapsIn pass handsOpen)]
  exact mirrors_onto past found _

end PassSetting

/-! ## Lists of rules that act alike -/

/-- In every pass and from every state, the two lists of rules do the same and report what they
may. -/
def ActAlike (rules rules' : List Rule) : Prop :=
  ∀ (σ : Type) (setting : PassSetting σ) (s : PassState σ),
    (setting.applyRules rules s).Mirrors id (setting.applyRules rules' s)

namespace ActAlike

variable {rules rules' : List Rule}

theorem refl (rules : List Rule) : ActAlike rules rules :=
  fun _ setting s => .refl (setting.applyRules rules s)

theorem within (h : ActAlike rules rules') (before after : List Rule) :
    ActAlike (before ++ rules ++ after) (before ++ rules' ++ after) := by
  intro σ setting s
  simp only [PassSetting.applyRules, List.foldl_append]
  exact PassSetting.mirrors_applyRules (.id setting.host) after (h σ setting _)

end ActAlike

namespace Referee

/-- The second result is the first one with its host seen through `f`. Diagnostics may differ, and
so may the rules that are active. -/
def PassResult.Mirrors (f : σ → τ) (r : PassResult σ) (r' : PassResult τ) : Prop :=
  ∃ found active, r' =
    { report := { r.report with diagnostics := found }
      context := r.context
      host := f r.host
      referee := { r.referee with active := active } }

/-- Rules that end in mirroring states make for mirroring results. -/
theorem mirrors_passEnd {f : σ → τ} {host : Host σ} {host' : Host τ} (maps : host.Maps f host')
    (ref : Referee) (active : ActiveRules) (pass : Pass) (handsOpen : Bool) {s : PassState σ}
    {s' : PassState τ} (h : s.Mirrors f s') :
    (ref.passEnd pass.phase (PassSetting.showLine ⟨host, pass, handsOpen⟩ s)).Mirrors f
      (passEnd { ref with active := active } pass.phase
        (PassSetting.showLine ⟨host', pass, handsOpen⟩ s')) := by
  obtain ⟨found, shown⟩ := PassSetting.mirrors_showLine maps h
  exact ⟨found, active, congrArg (passEnd { ref with active := active } pass.phase) shown⟩

theorem mirrors_evaluate {f : σ → τ} {host : Host σ} {host' : Host τ} (maps : host.Maps f host')
    {rules rules' : List Rule} (alike : ActAlike rules rules') (ref : Referee) (pass : Pass)
    (handsOpen : Bool) (ctx : Context) (state : σ) :
    (evaluate { ref with active := ⟨rules⟩ } ⟨host, pass, handsOpen⟩ ctx state).Mirrors f
      (evaluate { ref with active := ⟨rules'⟩ } ⟨host', pass, handsOpen⟩ ctx (f state)) := by
  have start : (ref.passStart ctx state).Mirrors f (ref.passStart ctx (f state)) := ⟨[], rfl⟩
  have acted := (alike σ ⟨host, pass, handsOpen⟩ (ref.passStart ctx state)).trans
    (PassSetting.mirrors_applyRules maps rules' start)
  rw [evaluate_eq_passEnd, evaluate_eq_passEnd]
  exact mirrors_passEnd maps { ref with active := ⟨rules⟩ } ⟨rules'⟩ pass handsOpen acted

end Referee

end Roshambo
