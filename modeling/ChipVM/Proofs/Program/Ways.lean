import ChipVM.Program.Folder
import ChipVM.Proofs.Program.Pieces

/-!
# Ways to a program

A program can be made from bytes, read from anything that delivers them, or opened as a file. The
size is checked in a place of its own on each way: before anything else, one byte past the limit, and
before the file is read. All three come to a program with just the given bytes if they fit and
complain of their number if they do not; only reading does not get to know the whole number.
-/

namespace ChipVM

namespace Program

/-- The outcome is the program with just these bytes if they fit. If not, it is the complaint that
there are `size` of them, and how many fit. -/
structure Obtains (data : List UInt8) (size : Nat) (outcome : Except LoadFault Program) : Prop where
  ok_iff : (∃ p, outcome = .ok p) ↔ data.length ≤ 3584
  bytes_eq : ∀ p, outcome = .ok p → p.bytes = data
  tooLarge : 3584 < data.length → outcome = .error (.tooLarge size 3584)

/-- Bytes that fit are a program. -/
theorem obtains_of_le {data : List UInt8} (h : data.length ≤ capacity) (size : Nat) :
    Obtains data size (.ok ⟨data, h⟩) where
  ok_iff := iff_of_true ⟨_, rfl⟩ h
  bytes_eq _ hp := congrArg bytes (Except.ok.inj hp).symm
  tooLarge hlong := absurd h (Nat.not_le.mpr hlong)

/-- Bytes that do not fit are reported with a size. -/
theorem obtains_of_lt {data : List UInt8} (h : capacity < data.length) (size : Nat) :
    Obtains data size (.error (.tooLarge size capacity)) where
  ok_iff := iff_of_false nofun (Nat.not_le.mpr h)
  bytes_eq := nofun
  tooLarge _ := rfl

/-- Bytes at hand come to what every way comes to, with all of them counted. -/
theorem obtains_ofBytes (data : List UInt8) : Obtains data data.length (ofBytes data) := by
  rcases Nat.lt_or_ge capacity data.length with hlong | hfits
  · rw [ofBytes_of_lt hlong]
    exact obtains_of_lt hlong data.length
  · rw [ofBytes, dif_pos hfits]
    exact obtains_of_le hfits data.length

/-- One byte past the limit is all that reading gets to know of what does not fit. -/
theorem obtains_ofDelivery (data : List UInt8) :
    Obtains data (capacity + 1) (Reading.ofDelivery data none).outcome := by
  rcases Nat.lt_or_ge capacity data.length with hlong | hfits
  · rw [Reading.outcome_eq_tooLarge_iff.mpr hlong]
    exact obtains_of_lt hlong (capacity + 1)
  · rw [Reading.outcome_of_fits hfits]
    exact obtains_of_le hfits (capacity + 1)

/-- A file comes to the same as its bytes. -/
theorem openFile_of_file {f : Folder} {path : String} {data : List UInt8}
    (h : f.find path = .ok (.file data)) : openFile f path = ofBytes data := by
  rw [openFile, h]
  rcases Nat.lt_or_ge capacity data.length with hlong | hfits
  · rw [ofBytes_of_lt hlong]
    exact if_pos hlong
  · have hread : read { bytes := data } = Reading.ofDelivery data none :=
      read_eq_ofDelivery (s := { bytes := data }) nofun
    have hopen : (if capacity < data.length then .error (.tooLarge data.length capacity)
        else (read { bytes := data }).outcome) = (read { bytes := data }).outcome :=
      if_neg (Nat.not_lt.mpr hfits)
    refine hopen.trans ?_
    rw [hread, Reading.outcome_of_fits hfits, ofBytes, dif_pos hfits]

/-- Bytes that are given, delivered by any reader that does not fail, or lying in a file come to the
program that consists of them exactly if there are at most 3584, and are complained of otherwise. The
complaint names their number, or 3585 if they were read, and the limit. -/
theorem three_ways_agree (data : List UInt8) :
    Obtains data data.length (ofBytes data) ∧
    (∀ {σ : Type} (r : Reader σ) (s : σ), r.Delivers none s data →
      Obtains data 3585 (readFrom r s).outcome) ∧
    (∀ s : Source, s.bytes = data → s.failure = none → s.piece ≠ some 0 →
      Obtains data 3585 (read s).outcome) ∧
    ∀ (f : Folder) (path : String), f.find path = .ok (.file data) →
      Obtains data data.length (openFile f path) := by
  refine ⟨obtains_ofBytes data, fun r s hr => ?_, fun s hbytes hfailure hpiece => ?_,
    fun f path hfile => ?_⟩
  · rw [readFrom_of_delivers hr]
    exact obtains_ofDelivery data
  · have hreach : s.reach = data := by rw [Source.reach, hfailure, hbytes]
    have hbreakdown : s.breakdown = none := by rw [Source.breakdown, hfailure]
    rw [read_eq_ofDelivery hpiece, hreach, hbreakdown]
    exact obtains_ofDelivery data
  · rw [openFile_of_file hfile]
    exact obtains_ofBytes data

/-- One byte more than fits, handed out in pieces of seven after an interruption. -/
def brimming : Source where
  bytes := List.replicate 3585 5
  piece := some 7
  interruptions := 1

/-- A folder that holds one file, in a folder of its own. -/
def gameFolder (data : List UInt8) : Folder := ⟨[(["roms", "game.ch8"], .file data)]⟩

/-- A program that is too long is refused in all three ways, each with the size that it reports. -/
theorem brimming_is_too_large :
    brimming.failure = none ∧ brimming.piece ≠ some 0 ∧
    Source.reader.Delivers none brimming brimming.bytes ∧
    (gameFolder brimming.bytes).find "./roms/game.ch8" = .ok (.file brimming.bytes) ∧
    Obtains brimming.bytes 3585 (read brimming).outcome ∧
    Obtains brimming.bytes 3585 (readFrom Source.reader brimming).outcome ∧
    Obtains brimming.bytes brimming.bytes.length
      (openFile (gameFolder brimming.bytes) "./roms/game.ch8") := by
  have hpiece : brimming.piece ≠ some 0 := by decide
  have hdelivers : Source.reader.Delivers none brimming brimming.bytes :=
    Source.delivers hpiece
  have hparts : "./roms/game.ch8".splitToList (· == '/') = [".", "roms", "game.ch8"] := by
    decide +kernel
  have hfind : (gameFolder brimming.bytes).find "./roms/game.ch8" =
      .ok (.file brimming.bytes) := by
    rw [Folder.find, if_neg (by decide), hparts]
    rfl
  obtain ⟨-, hreader, hsource, hfile⟩ := three_ways_agree brimming.bytes
  exact ⟨rfl, hpiece, hdelivers, hfind, hsource brimming rfl rfl hpiece,
    hreader Source.reader brimming hdelivers, hfile _ _ hfind⟩

end Program

end ChipVM
