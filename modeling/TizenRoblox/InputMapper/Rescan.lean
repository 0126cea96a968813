/-
# Looking for new gamepads

The mapper scans for gamepads when it starts and then every so often, and says so when
there is a new one. What it remembers of earlier scans is a number, the largest they have
found: it reports a scan that finds more than that (`reported_iff`). So it misses every
gamepad that comes when no more are attached than once were: where scans find what is
attached, the reports are right exactly if each new gamepad comes with more gamepads than
there ever were. As the search is, it finds none, and nothing is ever reported
(`reportsRight_iff`).
-/

import Mathlib.Data.Finset.Card
import TizenRoblox.InputMapper.Gamepads

namespace TizenRoblox.InputMapper

open TizenRoblox.Foundation

universe u

/-! ## The scans -/

/-- What the mapper remembers between two scans, and its open files. -/
structure Mapper where
  gamepadCount : ℤ
  process : Process

/-- The room in `gamepad_fds` and in `new_fds`. -/
def maxGamepads : ℤ := 8

/-- A search for gamepads by the mapper. -/
abbrev Scan := Process → Gamepads

/-- The scan before the main loop. -/
def firstScan (scan : Scan) (process : Process) : Mapper :=
  let found := scan process
  ⟨found.count, found.process⟩

/-- The loops over `close(new_fds[j])`. -/
def closeFound (found : Gamepads) : Process :=
  found.fds.foldl (fun process fd => process.close fd) found.process

/-- A scan of the main loop: whether it reports a new gamepad, and what it remembers. -/
def rescan (scan : Scan) (mapper : Mapper) : Bool × Mapper :=
  let found := scan mapper.process
  if found.count > mapper.gamepadCount then (true, ⟨found.count, closeFound found⟩)
  else (false, ⟨mapper.gamepadCount, closeFound found⟩)

section Reports

variable {Pad : Type u}

/-- A scan, and the gamepads that are attached then. -/
structure Sighting (Pad : Type u) where
  attached : Finset Pad
  scan : Scan

/-- The mapper after its first scan and some others. -/
def mapperAfter (first : Sighting Pad) (earlier : List (Sighting Pad)) (process : Process) :
    Mapper :=
  earlier.foldl (fun mapper sighting => (rescan sighting.scan mapper).2)
    (firstScan first.scan process)

/-- Some gamepad is attached at a scan that was not attached at the scan before it. -/
def New (first : Sighting Pad) (earlier : List (Sighting Pad)) (sighting : Sighting Pad) : Prop :=
  ∃ pad ∈ sighting.attached,
    pad ∉ ((first :: earlier).getLast (List.cons_ne_nil _ _)).attached

instance [DecidableEq Pad] (first : Sighting Pad) (earlier : List (Sighting Pad))
    (sighting : Sighting Pad) : Decidable (New first earlier sighting) :=
  inferInstanceAs (Decidable (∃ _ ∈ _, _))

/-- Each scan reports a new gamepad exactly if there is one. -/
def ReportsRight (first : Sighting Pad) (sightings : List (Sighting Pad)) (process : Process) :
    Prop :=
  ∀ earlier sighting later, sightings = earlier ++ sighting :: later →
    ((rescan sighting.scan (mapperAfter first earlier process)).1 = true ↔
      New first earlier sighting)

/-- Each new gamepad comes with more gamepads than at any scan before. -/
def NewOnesMore (first : Sighting Pad) (sightings : List (Sighting Pad)) : Prop :=
  ∀ earlier sighting later, sightings = earlier ++ sighting :: later →
    New first earlier sighting →
      ∀ other ∈ first :: earlier, other.attached.card < sighting.attached.card

/-- No scan sees a gamepad that the scan before it has not seen. -/
def NoneNew (first : Sighting Pad) (sightings : List (Sighting Pad)) : Prop :=
  ∀ earlier sighting later, sightings = earlier ++ sighting :: later →
    ¬ New first earlier sighting

/-- The scan finds that many gamepads, whatever files are open. -/
def Sighting.Finds (sighting : Sighting Pad) (number : ℕ) : Prop :=
  ∀ process, (sighting.scan process).count = number

/-- The scan finds what is attached; no more than there is room for. -/
structure Sighting.Complete (sighting : Sighting Pad) : Prop where
  fits : (sighting.attached.card : ℤ) ≤ maxGamepads
  finds : sighting.Finds sighting.attached.card

variable (number : Sighting Pad → ℕ)

theorem mapperAfter_snoc (first : Sighting Pad) (earlier : List (Sighting Pad))
    (last : Sighting Pad) (process : Process) :
    mapperAfter first (earlier ++ [last]) process =
      (rescan last.scan (mapperAfter first earlier process)).2 := by
  simp [mapperAfter]

/-- What a scan reports, and the number that is remembered after it. -/
theorem rescan_of_finds {sighting : Sighting Pad} {found : ℕ} (hfinds : sighting.Finds found)
    (mapper : Mapper) :
    ((rescan sighting.scan mapper).1 = true ↔ mapper.gamepadCount < found) ∧
      (rescan sighting.scan mapper).2.gamepadCount = max mapper.gamepadCount found := by
  unfold rescan
  simp only [hfinds mapper.process]
  split
  · next hmore => exact ⟨iff_of_true rfl hmore, (max_eq_right hmore.le).symm⟩
  · next hless => exact ⟨iff_of_false nofun hless, (max_eq_left (not_lt.mp hless)).symm⟩

/-- What the mapper remembers is the largest number that was found. -/
theorem gamepadCount_after {first : Sighting Pad} {earlier : List (Sighting Pad)}
    (hfinds : ∀ sighting ∈ first :: earlier, sighting.Finds (number sighting))
    (process : Process) :
    (∀ sighting ∈ first :: earlier,
        (number sighting : ℤ) ≤ (mapperAfter first earlier process).gamepadCount) ∧
      ∃ sighting ∈ first :: earlier,
        (mapperAfter first earlier process).gamepadCount = number sighting := by
  induction earlier using List.reverseRecOn with
  | nil =>
      have hcount : (mapperAfter first [] process).gamepadCount = number first :=
        hfinds first List.mem_cons_self process
      simp [hcount]
  | append_singleton earlier last ih =>
      rw [← List.cons_append] at hfinds
      obtain ⟨hall, best, hbest, heq⟩ :=
        ih fun sighting hmem => hfinds sighting (List.mem_append_left _ hmem)
      have hlast := hfinds last (List.mem_append_right _ (List.mem_singleton_self _))
      rw [mapperAfter_snoc, (rescan_of_finds hlast _).2, ← List.cons_append]
      constructor
      · intro sighting hmem
        rcases List.mem_append.mp hmem with hold | hnew
        · exact (hall sighting hold).trans (le_max_left _ _)
        · rw [List.mem_singleton.mp hnew]
          exact le_max_right _ _
      · rcases max_choice (mapperAfter first earlier process).gamepadCount (number last) with
          hmax | hmax
        · exact ⟨best, List.mem_append_left _ hbest, hmax.trans heq⟩
        · exact ⟨last, List.mem_append_right _ (List.mem_singleton_self _), hmax⟩

/-- A scan reports a new gamepad if it finds more than every one before it. -/
theorem reported_iff {first : Sighting Pad} {earlier : List (Sighting Pad)}
    {sighting : Sighting Pad}
    (hfinds : ∀ other ∈ first :: earlier, other.Finds (number other))
    (hsighting : sighting.Finds (number sighting)) (process : Process) :
    (rescan sighting.scan (mapperAfter first earlier process)).1 = true ↔
      ∀ other ∈ first :: earlier, number other < number sighting := by
  obtain ⟨hall, best, hbest, heq⟩ := gamepadCount_after number hfinds process
  rw [(rescan_of_finds hsighting _).1]
  constructor
  · intro hless other hother
    exact_mod_cast (hall other hother).trans_lt hless
  · intro hless
    rw [heq]
    exact_mod_cast hless best hbest

/-! ## When the reports are right -/

/-- Where scans find what is attached, the reports are right if no gamepad comes in place
of others that were attached once. -/
theorem reportsRight_iff_newOnesMore {first : Sighting Pad} {sightings : List (Sighting Pad)}
    (hcomplete : ∀ sighting ∈ first :: sightings, sighting.Complete) (process : Process) :
    ReportsRight first sightings process ↔ NewOnesMore first sightings := by
  have hreported : ∀ earlier sighting later, sightings = earlier ++ sighting :: later →
      ((rescan sighting.scan (mapperAfter first earlier process)).1 = true ↔
        ∀ other ∈ first :: earlier, other.attached.card < sighting.attached.card) := by
    rintro earlier sighting later rfl
    refine reported_iff (fun sighting => sighting.attached.card) (fun other hother => ?_)
      (hcomplete sighting (by simp)).finds process
    rw [← List.cons_append] at hcomplete
    exact (hcomplete other (List.mem_append_left _ hother)).finds
  have hnew : ∀ earlier sighting,
      (∀ other ∈ first :: earlier, other.attached.card < sighting.attached.card) →
        New first earlier sighting := fun earlier sighting hmore =>
    Finset.exists_mem_notMem_of_card_lt_card (hmore _ (List.getLast_mem _))
  constructor
  · intro hright earlier sighting later hsplit hisNew
    exact (hreported earlier sighting later hsplit).mp
      ((hright earlier sighting later hsplit).mpr hisNew)
  · intro hmore earlier sighting later hsplit
    rw [hreported earlier sighting later hsplit]
    exact ⟨hnew earlier sighting, hmore earlier sighting later hsplit⟩

/-- The gamepads of a listing, told apart in some way, and the scan of that listing. -/
def sightingOf [DecidableEq Pad] (identity : Entry → Pad) (listing : Option Listing) :
    Sighting Pad where
  attached := (((listing.elim [] Listing.entries).filter isGamepad).map identity).toFinset
  scan := findGamepads listing maxGamepads

/-- As the search is, the reports are right if no gamepad ever comes. -/
theorem reportsRight_iff_noneNew [DecidableEq Pad] (identity : Entry → Pad)
    (first : Option Listing) (listings : List (Option Listing)) (process : Process) :
    ReportsRight (sightingOf identity first) (listings.map (sightingOf identity)) process ↔
      NoneNew (sightingOf identity first) (listings.map (sightingOf identity)) := by
  have hnothing : ∀ listing, (sightingOf identity listing).Finds 0 := by
    intro listing process
    simp [sightingOf, Gamepads.count, (findGamepads_none listing maxGamepads process).1]
  unfold ReportsRight NoneNew
  apply forall₄_congr
  intro earlier sighting later hsplit
  have hall : ∀ other ∈ sightingOf identity first :: (earlier ++ sighting :: later),
      other.Finds 0 := by
    intro other hother
    rw [← hsplit, ← List.map_cons] at hother
    obtain ⟨listing, -, rfl⟩ := List.mem_map.mp hother
    exact hnothing listing
  have hreported := reported_iff (fun _ => 0)
    (fun other hother => hall other (List.mem_append_left (sighting :: later) hother))
    (hall sighting (by simp)) process
  have hnever : ¬ ∀ other ∈ sightingOf identity first :: earlier, 0 < 0 := fun hless =>
    Nat.lt_irrefl 0 (hless _ List.mem_cons_self)
  rw [hreported, iff_false_left hnever]

/-- Given scans that find the gamepads attached, at most eight, each new gamepad is
reported, and nothing else, exactly if each comes with more gamepads than there ever were.
Given the scans of the mapper itself, exactly if none comes. -/
theorem reportsRight_iff [DecidableEq Pad] :
    (∀ (first : Sighting Pad) (sightings : List (Sighting Pad)) (process : Process),
      (∀ sighting ∈ first :: sightings, sighting.Complete) →
        (ReportsRight first sightings process ↔ NewOnesMore first sightings)) ∧
    ∀ (identity : Entry → Pad) (first : Option Listing) (listings : List (Option Listing))
      (process : Process),
      ReportsRight (sightingOf identity first) (listings.map (sightingOf identity)) process ↔
        NoneNew (sightingOf identity first) (listings.map (sightingOf identity)) :=
  ⟨fun _ _ process hcomplete => reportsRight_iff_newOnesMore hcomplete process,
    reportsRight_iff_noneNew⟩

end Reports

/-! ## Gamepads that come and go -/

/-- A scan of nodes that are all gamepads. -/
def scanOf (nodes : List Bytes) : Scan := fun process =>
  nodes.foldl (fun found node =>
    found.keep found.process.lowestFree (found.process.openFile (.node node))) ⟨[], [], process⟩

/-- Some gamepads are attached, and the scan finds them. -/
def seen (nodes : List Bytes) : Sighting Bytes := ⟨nodes.toFinset, scanOf nodes⟩

theorem seen_finds (nodes : List Bytes) : (seen nodes).Finds nodes.length := by
  intro process
  have hlength : ∀ found : Gamepads, (nodes.foldl (fun found node =>
      found.keep found.process.lowestFree (found.process.openFile (.node node)))
      found).fds.length = found.fds.length + nodes.length := by
    induction nodes with
    | nil => exact fun _ => rfl
    | cons node rest ih =>
        intro found
        rw [List.foldl_cons, ih, Gamepads.keep, List.length_append, List.length_singleton,
          List.length_cons]
        omega
  simp [seen, scanOf, Gamepads.count, hlength]

theorem seen_complete {nodes : List Bytes} (hdistinct : nodes.Nodup) (hfits : nodes.length ≤ 8) :
    (seen nodes).Complete := by
  have hcard : (seen nodes).attached.card = nodes.length := List.toFinset_card_of_nodup hdistinct
  constructor
  · rw [hcard]
    exact Int.ofNat_le.mpr hfits
  · rw [hcard]
    exact seen_finds nodes

/-- Two gamepads that come one after the other are reported. -/
theorem reportsRight_growing :
    ReportsRight (seen []) [seen [bytes "event4"], seen [bytes "event4", bytes "event5"]]
      standardStreams := by
  refine (reportsRight_iff.1 _ _ _ ?_).mpr ?_
  · simp only [List.forall_mem_cons, List.not_mem_nil, false_imp_iff, implies_true, and_true]
    exact ⟨seen_complete (by decide) (by decide), seen_complete (by decide) (by decide),
      seen_complete (by decide) (by decide)⟩
  · intro earlier sighting later hsplit _ other hother
    rcases earlier with _ | ⟨early, earlier⟩
    · obtain ⟨rfl, -⟩ := List.cons.inj hsplit
      obtain rfl := List.mem_singleton.mp hother
      decide
    · obtain ⟨rfl, hrest⟩ := List.cons.inj hsplit
      rcases earlier with _ | ⟨_, earlier⟩
      · obtain ⟨rfl, -⟩ := List.cons.inj hrest
        revert other
        decide
      · simp at hrest

/-- A gamepad that is replaced by another one, or comes back, is not reported. -/
theorem not_reportsRight_replaced :
    ¬ ReportsRight (seen [bytes "event4"]) [seen [bytes "event5"]] standardStreams ∧
    ¬ ReportsRight (seen [bytes "event4"]) [seen [], seen [bytes "event4"]] standardStreams := by
  constructor
  · intro hright
    have hreport := (hright [] _ [] rfl).mpr (by decide)
    revert hreport
    decide
  · intro hright
    have hreport := (hright [seen []] _ [] rfl).mpr (by decide)
    revert hreport
    decide

end TizenRoblox.InputMapper
