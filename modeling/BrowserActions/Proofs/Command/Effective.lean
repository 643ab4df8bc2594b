import Mathlib
import BrowserActions.Proofs.Command.Outcome
import BrowserActions.Proofs.Config.Lookup
import BrowserActions.Proofs.Config.RoundTrip
import BrowserActions.Proofs.Toml.Tidy

/-!
# The effective configuration

What a file says is laid over the defaults, and both have durations that can be written. So a
configuration that was loaded can always be printed, and what is printed is a file that tells the
same configuration and is printed as it stands.
-/
namespace BrowserActions

open Decode

theorem uint64_signed {d : Draft} {n : UInt64} (hd : d.Tidy) (h : uint64 d = .ok n) :
    n.toNat < 2 ^ 63 := by
  rw [uint64_eq_ok] at h
  subst h
  cases hd with
  | integer h => exact_mod_cast h

variable {exact : Bool} {d : Draft}

def ToldSigned (duration : Option UInt64) : Prop := ∀ n ∈ duration, n.toNat < 2 ^ 63

theorem toldSigned_none : ToldSigned none := by
  intro n hn
  cases hn

theorem toldSigned_read {n : UInt64} (hd : d.Tidy) (h : uint64 d = .ok n) :
    ToldSigned (some n) := by
  intro m hm
  cases hm
  exact uint64_signed hd h

theorem ToldSigned.getD {duration : Option UInt64} {standard : UInt64} (h : ToldSigned duration)
    (hstandard : standard.toNat < 2 ^ 63) : (duration.getD standard).toNat < 2 ^ 63 := by
  cases duration with
  | none => exact hstandard
  | some n => exact h n rfl

theorem polling_fits {c : PollingConfig} (hd : d.Tidy)
    (h : PollingConfig.record.decode exact d = .ok c) : c.intervalMs.toNat < 2 ^ 63 := by
  have hkeeps : Keeps Draft.Tidy (fun t => ToldSigned t.intervalMs)
      PollingConfig.record.members := by
    intro m hm s d t hs hd hread
    simp only [PollingConfig.record, List.mem_cons, List.not_mem_nil, or_false] at hm
    rcases hm with rfl | rfl | rfl
    · obtain ⟨n, hn, rfl⟩ := map_eq_ok.mp hread
      exact toldSigned_read hd hn
    · obtain ⟨n, -, rfl⟩ := map_eq_ok.mp hread
      exact hs
    · obtain ⟨b, -, rfl⟩ := map_eq_ok.mp hread
      exact hs
  obtain ⟨t, ht, hfinish⟩ := decode_keeps hereditary_tidy hkeeps toldSigned_none hd h
  cases hfinish
  exact ht.getD (by decide)

theorem stability_fits {c : StabilityConfig} (hd : d.Tidy)
    (h : StabilityConfig.record.decode exact d = .ok c) :
    c.intervalMs.toNat < 2 ^ 63 ∧ c.timeoutMs.toNat < 2 ^ 63 := by
  have hkeeps : Keeps Draft.Tidy (fun t => ToldSigned t.intervalMs ∧ ToldSigned t.timeoutMs)
      StabilityConfig.record.members := by
    intro m hm s d t hs hd hread
    simp only [StabilityConfig.record, List.mem_cons, List.not_mem_nil, or_false] at hm
    rcases hm with rfl | rfl | rfl
    · obtain ⟨n, hn, rfl⟩ := map_eq_ok.mp hread
      exact ⟨toldSigned_read hd hn, hs.2⟩
    · obtain ⟨n, hn, rfl⟩ := map_eq_ok.mp hread
      exact ⟨hs.1, toldSigned_read hd hn⟩
    · obtain ⟨b, -, rfl⟩ := map_eq_ok.mp hread
      exact hs
  obtain ⟨t, ht, hfinish⟩ := decode_keeps hereditary_tidy hkeeps
    ⟨toldSigned_none, toldSigned_none⟩ hd h
  cases hfinish
  exact ⟨ht.1.getD (by decide), ht.2.getD (by decide)⟩

structure SectionsFit (t : Config.Told) : Prop where
  polling : ∀ c ∈ t.polling, c.intervalMs.toNat < 2 ^ 63
  stability : ∀ c ∈ t.stability, c.intervalMs.toNat < 2 ^ 63 ∧ c.timeoutMs.toNat < 2 ^ 63

theorem SectionsFit.none_told : SectionsFit {} where
  polling c hc := by cases hc
  stability c hc := by cases hc

theorem SectionsFit.complete {t : Config.Told} (h : SectionsFit t) : t.complete.Fits := by
  have hpolling : (t.polling.getD .standard).intervalMs.toNat < 2 ^ 63 := by
    cases hp : t.polling with
    | none => decide
    | some c => exact h.polling c hp
  have hstability : (t.stability.getD .standard).intervalMs.toNat < 2 ^ 63 ∧
      (t.stability.getD .standard).timeoutMs.toNat < 2 ^ 63 := by
    cases hs : t.stability with
    | none => decide
    | some c => exact h.stability c hs
  exact ⟨hpolling, hstability⟩

theorem config_fits {c : Config} (hd : d.Tidy)
    (h : (Config.record exact).decode exact d = .ok c) : c.Fits := by
  have hkeeps : Keeps Draft.Tidy SectionsFit (Config.record exact).members := by
    intro m hm s d t hs hd hread
    simp only [Config.record, List.mem_cons, List.not_mem_nil, or_false] at hm
    rcases hm with rfl | rfl | rfl
    · obtain ⟨p, hp, rfl⟩ := map_eq_ok.mp hread
      refine ⟨fun c hc => ?_, hs.stability⟩
      cases hc
      exact polling_fits hd hp
    · obtain ⟨p, hp, rfl⟩ := map_eq_ok.mp hread
      refine ⟨hs.polling, fun c hc => ?_⟩
      cases hc
      exact stability_fits hd hp
    · obtain ⟨p, -, rfl⟩ := map_eq_ok.mp hread
      exact ⟨hs.polling, hs.stability⟩
  obtain ⟨t, ht, hfinish⟩ := decode_keeps hereditary_tidy hkeeps SectionsFit.none_told hd h
  cases hfinish
  exact ht.complete

theorem fits_of_toml {text : String} {c : Config} (h : Config.ofToml text = .ok c) : c.Fits := by
  rw [Config.ofToml] at h
  split at h
  · cases h
  next table hread =>
    split at h
    next c' hdecode =>
      cases h
      exact config_fits (Toml.tidy_table.mpr (Toml.read_tidy hread)) hdecode
    · cases h

namespace Command

/-- The text of the file from which a run takes its configuration. -/
def TakesFrom (s : Surroundings) (i : Invocation) (text : String) : Prop :=
  ∃ path, i.config.or (Config.path? s) = some path ∧ s.files.read path = .ok text

theorem TakesFrom.loadConfig_eq {s : Surroundings} {i : Invocation} {text : String}
    (h : TakesFrom s i text) : loadConfig s i.config = Config.ofToml text := by
  obtain ⟨path, hpath, hread⟩ := h
  have hfrom : loadConfig s i.config = Config.loadFrom s path := by
    cases hconfig : i.config with
    | some named =>
      rw [hconfig] at hpath
      cases hpath
      rfl
    | none =>
      rw [hconfig, Option.none_or] at hpath
      rw [loadConfig, Config.load, hpath]
  rw [hfrom, Config.loadFrom, hread]

/-- A configuration that a text tells can be printed. What is printed tells the same configuration,
so a run on it prints what the run on the first text did. -/
theorem printed_config_is_fixed (text : String) (c : Config) (h : Config.ofToml text = .ok c) :
    ∃ printed, c.toToml = .ok printed ∧
      (∀ s path, s.files.read path = .ok printed → Config.loadFrom s path = .ok c) ∧
      ∀ s s' args i, EnvFile.apply s = some s' → Parsed.ofArgs args = .run i →
        i.request = .config → (TakesFrom s' i text ∨ TakesFrom s' i printed) →
        run s args = .printed printed := by
  have hfits := fits_of_toml h
  have hagain : Config.ofToml c.text = .ok c := Config.ofToml_text hfits
  refine ⟨c.text, Config.toToml_of_fits hfits, ?_, ?_⟩
  · intro s path hread
    exact Config.loadFrom_of_read hfits hread
  · intro s s' args i happly hargs hrequest htakes
    have hconfig : loadConfig s' i.config = .ok c := by
      rcases htakes with htakes | htakes
      · rw [htakes.loadConfig_eq, h]
      · rw [htakes.loadConfig_eq, hagain]
    apply run_of_answer hargs happly hconfig
    rw [hrequest]
    exact Config.toToml_of_fits hfits

def holding (text : String) : Surroundings where
  bindings := []
  files := ⟨[(["work", "c.toml"], .text text)], ["work"]⟩
  programDirectory := none
  settingsDirectory := none
  input := .text ""

/-- A file with one setting, in another base, and with a section that is not known. -/
theorem printed_config_is_fixed_partial :
    let text := "[stability]\ntimeout_ms = 0x1F4\n\n[other]\nfilter = 1\n"
    let printed := "[polling]\ninterval_ms = 100\nmax_checks = 50\nreject_on_timeout = true\n\n" ++
      "[stability]\ninterval_ms = 200\ntimeout_ms = 500\nreject_on_timeout = false\n\n" ++
      "[logging]\nfilter = \"info\"\n"
    run (holding text) ["config", "--config", "c.toml"] = .printed printed ∧
      run (holding printed) ["config", "--config", "c.toml"] = .printed printed := by
  intro text printed
  let c : Config := ⟨.standard, ⟨200, 500, false⟩, .standard⟩
  have hread : Config.ofToml text = .ok c := Config.ofToml_of_toOption (by decide +kernel)
  have hprinted : c.toToml = .ok printed := by
    rw [Config.toToml_of_fits (by decide)]
    exact congrArg Except.ok (by decide +kernel)
  have hargs : Parsed.ofArgs ["config", "--config", "c.toml"] = .run ⟨some "c.toml", .config⟩ := by
    decide +kernel
  obtain ⟨again, hagain, -, hrun⟩ := printed_config_is_fixed text c hread
  obtain rfl : again = printed := Except.ok.inj (hagain.symm.trans hprinted)
  have happly : EnvFile.apply (holding text) = some (holding text) := by decide +kernel
  have happly' : EnvFile.apply (holding printed) = some (holding printed) := by decide +kernel
  refine ⟨hrun _ _ _ _ happly hargs rfl (.inl ?_), hrun _ _ _ _ happly' hargs rfl (.inr ?_)⟩
  · exact ⟨"c.toml", rfl, by decide +kernel⟩
  · exact ⟨"c.toml", rfl, by decide +kernel⟩

end Command
end BrowserActions
