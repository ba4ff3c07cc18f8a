import LiteosM.Swtmr.Align
import LiteosM.Swtmr.Frame

/-!
# The count that a timer starts with

What `OsSwtmrStart` makes of the interval of a timer, whatever the records of the others say.
-/

namespace LiteosM.Swtmr

open LiteosM.Lib.Word32

section

variable [SwtmrConfig] {clock : Nat → Nat} {s s' : SwtmrState} {t n : Nat}

theorem osSwtmrFindAlignPosLoop_congr (htimes : (s'.alignInfo t).times = (s.alignInfo t).times)
    (hmultiple : (s'.alignInfo t).canMultiple = (s.alignInfo t).canMultiple)
    (hinterval : ∀ u, (s'.gSwtmrCBArray u).uwInterval = (s.gSwtmrCBArray u).uwInterval) (l : List Nat) :
    ∀ va vb a b, (∀ c ∈ l, s'.alignInfo c = s.alignInfo c) →
      osSwtmrFindAlignPosLoop s' t l va vb a b = osSwtmrFindAlignPosLoop s t l va vb a b := by
  induction l with
  | nil =>
    intro va vb a b _
    rfl
  | cons c l ih =>
    intro va vb a b hinfo
    have hrest := fun va vb a b => ih va vb a b fun c hc => hinfo c (List.mem_cons_of_mem _ hc)
    simp only [osSwtmrFindAlignPosLoop, hinfo c List.mem_cons_self, htimes, hmultiple, hinterval, hrest]

theorem osSwtmrFindAlignPosLoop_mem {a' b' : Option Nat} (l : List Nat) :
    ∀ va vb a b, osSwtmrFindAlignPosLoop s t l va vb a b = .found a' b' →
      (∀ c, a' = some c → a = some c ∨ c ∈ l) ∧ ∀ c, b' = some c → b = some c ∨ c ∈ l := by
  induction l with
  | nil =>
    intro va vb a b h
    cases h
    exact ⟨fun _ => .inl, fun _ => .inl⟩
  | cons d l ih =>
    have hmore : ∀ {o o' : Option Nat}, (∀ c, o' = some c → o = some c ∨ c ∈ l) →
        ∀ c, o' = some c → o = some c ∨ c ∈ d :: l :=
      fun h c hc => (h c hc).imp_right (List.mem_cons_of_mem _)
    have hhere : ∀ {o o' : Option Nat}, (∀ c, o' = some c → some d = some c ∨ c ∈ l) →
        ∀ c, o' = some c → o = some c ∨ c ∈ d :: l := by
      intro o o' h c hc
      obtain heq | hmem := h c hc
      · cases heq
        exact .inr List.mem_cons_self
      · exact .inr (List.mem_cons_of_mem _ hmem)
    have hskip : ∀ va vb a b, osSwtmrFindAlignPosLoop s t l va vb a b = .found a' b' →
        (∀ c, a' = some c → a = some c ∨ c ∈ d :: l) ∧ ∀ c, b' = some c → b = some c ∨ c ∈ d :: l :=
      fun va vb a b h => ⟨hmore (ih va vb a b h).1, hmore (ih va vb a b h).2⟩
    intro va vb a b h
    unfold osSwtmrFindAlignPosLoop at h
    dsimp only at h
    split at h
    · exact hskip va vb a b h
    split at h
    · cases h
    split at h
    · exact hskip va vb a b h
    split at h
    · cases h
    split at h
    · split at h
      · exact ⟨hhere (ih _ _ _ _ h).1, hmore (ih _ _ _ _ h).2⟩
      · exact hskip va vb a b h
    split at h
    · split at h
      · exact ⟨hmore (ih _ _ _ _ h).1, hhere (ih _ _ _ _ h).2⟩
      · exact hskip va vb a b h
    · exact hskip va vb a b h

/-- A timer that is started waits `n` ticks: its interval, or what the timer that it is aligned with leaves. -/
def Waits (s : SwtmrState) (now t n : Nat) : Prop :=
  if SwtmrConfig.align && (s.alignInfo t).canAlign && !(s.alignInfo t).isAligned then
    match osSwtmrFindAlignPosLoop s t s.gSwtmrSortLink osNullInt osNullInt none none with
    | .same => n = 0
    | .stop => s.interval t = n
    | .found (some minInLarge) _ => s.interval t = n ∧
      (0 < n → n ∣ sub32 (s.interval minInLarge) (s.remaining now minInLarge))
    | .found none (some maxInLitte) => s.remaining now maxInLitte = n
    | .found none none => s.interval t = n
  else s.interval t = n

omit [SwtmrConfig] in
theorem alignCount_iff {v x : Nat} (hword : v < 2 ^ 32) (hn : v = 0 ∨ v = n) :
    (if v = 0 then v else sub32 v (x % v)) = n ↔ v = n ∧ (0 < n → n ∣ x) := by
  split
  · next hzero =>
    rw [hzero]
    constructor
    · intro h
      exact ⟨h, fun hpos => absurd h (Nat.ne_of_lt hpos)⟩
    · exact And.left
  · next hpos =>
    obtain rfl := hn.resolve_left hpos
    have hlt := Nat.mod_lt x (Nat.pos_of_ne_zero hpos)
    rw [sub32_of_le v _ hlt.le hword, Nat.dvd_iff_mod_eq_zero]
    omega

theorem osSwtmrStart_waits (clock : Nat → Nat) (hl : Listed s) (ht : t < SwtmrConfig.swtmrLimit)
    (hoff : t ∉ s.gSwtmrSortLink) (hword : s.interval t < 2 ^ 32) (hn : s.interval t = 0 ∨ s.interval t = n) :
    ((osSwtmrStart clock s t).gSwtmrCBArray t).uwCount = n ↔ Waits s (clock s.reads) t n := by
  obtain ⟨s₁, hs₁⟩ : ∃ s₁, s₁ = { s with reads := s.reads + 1 }.modify t fun cb =>
      { cb with uwCount := cb.uwInterval, ucState := .ticking } := ⟨_, rfl⟩
  have hcb : s₁.gSwtmrCBArray t = { s.gSwtmrCBArray t with
      uwCount := (s.gSwtmrCBArray t).uwInterval
      ucState := .ticking } := by
    rw [hs₁]
    exact modify_self ..
  have hothers : ∀ u, u ≠ t → s₁.gSwtmrCBArray u = s.gSwtmrCBArray u := by
    intro u hu
    rw [hs₁]
    exact modify_of_ne hu
  have hrest : s₁.gSwtmrSortLink = s.gSwtmrSortLink ∧ s₁.gSwtmrAlignID = s.gSwtmrAlignID := by
    rw [hs₁]
    exact ⟨rfl, rfl⟩
  have hindex : ∀ u, s₁.alignIndex u = s.alignIndex u := by
    intro u
    unfold SwtmrState.alignIndex
    by_cases hu : u = t
    · rw [hu, hcb]
    · rw [hothers u hu]
  have hinterval : ∀ u, (s₁.gSwtmrCBArray u).uwInterval = (s.gSwtmrCBArray u).uwInterval := by
    intro u
    by_cases hu : u = t
    · rw [hu, hcb]
    · rw [hothers u hu]
  have hinfo : ∀ u, s₁.alignInfo u = s.alignInfo u := by
    intro u
    unfold SwtmrState.alignInfo
    rw [hindex, hrest.2]
  have hadd : ∀ s₂ : SwtmrState, ∀ start wait,
      ((osAdd2SortLink s₂ t start wait).gSwtmrCBArray t).uwCount = (s₂.gSwtmrCBArray t).uwCount := by
    intro s₂ start wait
    have hself := congrArg SwtmrCtrl.uwCount
      (modify_self s₂ t fun cb => { cb with responseTime := ((start + wait * osCyclePerTick : Nat) : WithTop Nat) })
    exact hself
  unfold osSwtmrStart Waits
  dsimp only
  rw [← hs₁, hadd, hinfo]
  by_cases halign : (SwtmrConfig.align && (s.alignInfo t).canAlign && !(s.alignInfo t).isAligned) = true
  · rw [if_pos halign, if_pos halign]
    have hself := alignInfo_setAlign s₁ t { s.alignInfo t with isAligned := true }
    have hother : ∀ c ∈ s.gSwtmrSortLink,
        (s₁.setAlign t { s.alignInfo t with isAligned := true }).alignInfo c = s.alignInfo c := by
      intro c hc
      have hne : c ≠ t := fun heq => hoff (heq ▸ hc)
      refine (Function.update_of_ne ?_ ..).trans (hinfo c)
      change s₁.alignIndex c ≠ s₁.alignIndex t
      rw [hindex, hindex, hl.ids c (hl.linked c hc).1, hl.ids t ht]
      exact hne
    have hsame : (s₁.setAlign t { s.alignInfo t with isAligned := true }).gSwtmrCBArray = s₁.gSwtmrCBArray ∧
        (s₁.setAlign t { s.alignInfo t with isAligned := true }).gSwtmrSortLink = s₁.gSwtmrSortLink := ⟨rfl, rfl⟩
    generalize s₁.setAlign t { s.alignInfo t with isAligned := true } = s₂ at *
    obtain ⟨hcbs, hlinks⟩ := hsame
    have htimes : (s₂.alignInfo t).times = (s.alignInfo t).times := by rw [hself]
    have hmultiple : (s₂.alignInfo t).canMultiple = (s.alignInfo t).canMultiple := by rw [hself]
    have hloop := osSwtmrFindAlignPosLoop_congr htimes hmultiple (fun u => by rw [hcbs, hinterval])
      s.gSwtmrSortLink osNullInt osNullInt none none hother
    unfold osSwtmrFindAlignPos
    rw [hlinks, hrest.1, hloop]
    -- the timer that the search has found is another one
    have hfound : ∀ c ∈ s.gSwtmrSortLink, (s₂.gSwtmrCBArray c).usTimerID % SwtmrConfig.swtmrLimit = c ∧
        s₂.responseTime c = s.responseTime c ∧ s₂.gSwtmrCBArray c = s.gSwtmrCBArray c := by
      intro c hc
      have hkeep : s₂.gSwtmrCBArray c = s.gSwtmrCBArray c := by
        rw [hcbs]
        exact hothers c fun heq => hoff (heq ▸ hc)
      have hid : (s.gSwtmrCBArray c).usTimerID % SwtmrConfig.swtmrLimit = c := hl.ids c (hl.linked c hc).1
      refine ⟨?_, congrArg SwtmrCtrl.responseTime hkeep, hkeep⟩
      rw [hkeep]
      exact hid
    have hown : (s₂.gSwtmrCBArray t).uwCount = s.interval t := by
      rw [hcbs, hcb]
      rfl
    cases hpos : osSwtmrFindAlignPosLoop s t s.gSwtmrSortLink osNullInt osNullInt none none with
    | same =>
      dsimp only
      rw [modify_self]
      exact eq_comm
    | stop => exact hown ▸ Iff.rfl
    | found a b =>
      obtain ⟨hina, hinb⟩ := osSwtmrFindAlignPosLoop_mem _ _ _ _ _ hpos
      cases a with
      | some c =>
        obtain ⟨hid, htime, hkeep⟩ := hfound c ((hina c rfl).resolve_left nofun)
        dsimp only
        rw [modify_self]
        unfold osSwtmrCalcAlignCount
        dsimp only
        rw [hid, hcbs, hinterval, ← hcbs, hkeep]
        exact alignCount_iff hword hn
      | none =>
        cases b with
        | some c =>
          obtain ⟨_, htime, _⟩ := hfound c ((hinb c rfl).resolve_left nofun)
          dsimp only
          rw [modify_self, htime]
          rfl
        | none => exact hown ▸ Iff.rfl
  · rw [if_neg halign, if_neg halign, hcb]
    rfl

end

end LiteosM.Swtmr
