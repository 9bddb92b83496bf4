import EconRos2Driver.Subscribers

/-!
# The bytes a subscriber hands to OpenCV

A matrix over a message ends with the last pixel of its last row. Neither subscriber compares that
end with the length of the data, so whether the matrix stays inside the message is up to the header
fields that some publisher chose.
-/

namespace EconRos2Driver

variable {accepts : Accepts} {msg : ReceivedImage} {img : MatHeader}

/-- The positions of the bytes of a matrix, from the start of its data. -/
def MatHeader.Covers (img : MatHeader) (k : Nat) : Prop :=
  ∃ row col : Nat, (row : Int) < img.rows ∧ (col : Int) < 3 * img.cols ∧ k = row * img.step + col

def MatHeader.Inside (img : MatHeader) (data : List UInt8) : Prop :=
  img.empty = false → ∀ k, img.Covers k → k < data.length

def ReceivedImage.rowStride (msg : ReceivedImage) : Nat :=
  if msg.step.toNat = 0 then 3 * msg.width.toNat else msg.step.toNat

/-- If there is a matrix with at least one pixel, its last row ends inside the data. -/
def Fits (accepts : Accepts) (msg : ReceivedImage) : Prop :=
  accepts (staticCastInt msg.height) (staticCastInt msg.width) msg.null msg.step.toNat = true →
    msg.null = false → 0 < msg.height.toNat → msg.height.toNat < 2 ^ 31 → 0 < msg.width.toNat →
    msg.width.toNat < 2 ^ 31 →
      (msg.height.toNat - 1) * msg.rowStride + 3 * msg.width.toNat ≤ msg.data.length

theorem staticCastInt_eq (n : UInt32) :
    staticCastInt n = if n.toNat < 2 ^ 31 then (n.toNat : Int) else n.toNat - 2 ^ 32 := by
  have htoInt : staticCastInt n = n.toBitVec.toInt := rfl
  rw [htoInt, BitVec.toInt_eq_toNat_cond, UInt32.toNat_toBitVec]
  split_ifs <;> omega

/-- Rows of `width` bytes that begin `step` bytes apart end with the last byte of the last one. -/
theorem strided_lt_iff {rows width step size : Nat} (hrows : 0 < rows) (hwidth : 0 < width) :
    (∀ row < rows, ∀ col < width, row * step + col < size) ↔
      (rows - 1) * step + width ≤ size := by
  constructor
  · intro h
    have hlast := h (rows - 1) (by omega) (width - 1) (by omega)
    omega
  · intro h row hrow col hcol
    calc row * step + col < row * step + width := Nat.add_lt_add_left hcol _
      _ ≤ (rows - 1) * step + width :=
        Nat.add_le_add_right (Nat.mul_le_mul_right step (Nat.le_sub_one_of_lt hrow)) _
      _ ≤ size := h

theorem MatHeader.inside_of_nonpos {data : List UInt8} (h : img.rows ≤ 0 ∨ img.cols ≤ 0) :
    img.Inside data := by
  rintro - k ⟨row, col, hrow, hcol, -⟩
  omega

theorem MatHeader.inside_iff {data : List UInt8} {rows cols : Nat} (hrows : 0 < rows)
    (hcols : 0 < cols) (himg : img.rows = rows) (himg' : img.cols = cols)
    (hnull : img.null = false) :
    img.Inside data ↔ (rows - 1) * img.step + 3 * cols ≤ data.length := by
  rw [← strided_lt_iff hrows (Nat.mul_pos (by decide) hcols)]
  have hempty : img.empty = false := by
    have hpos : img.rows * img.cols ≠ 0 := by
      rw [himg, himg']
      exact_mod_cast Nat.pos_iff_ne_zero.mp (Nat.mul_pos hrows hcols)
    simp [MatHeader.empty, hnull, hpos]
  constructor
  · intro h row hrow col hcol
    exact h hempty _ ⟨row, col, by omega, by omega, rfl⟩
  · rintro h - k ⟨row, col, hrow, hcol, rfl⟩
    exact h row (by omega) col (by omega)

theorem mat_inside_iff : (∀ img, msg.mat accepts = some img → img.Inside msg.data) ↔
    Fits accepts msg := by
  by_cases haccepts : accepts (staticCastInt msg.height) (staticCastInt msg.width) msg.null
      msg.step.toNat = true
  · rw [ReceivedImage.mat, if_pos haccepts]
    simp only [Option.some.injEq, forall_eq', Fits, haccepts, forall_const]
    have hrows := staticCastInt_eq msg.height
    have hcols := staticCastInt_eq msg.width
    by_cases hnull : msg.null = true
    · constructor
      · intro _ hfalse
        rw [hnull] at hfalse
        cases hfalse
      · intro _ hempty
        simp [MatHeader.empty, hnull] at hempty
    · rw [Bool.not_eq_true] at hnull
      by_cases hpos : (0 < msg.height.toNat ∧ msg.height.toNat < 2 ^ 31) ∧
          0 < msg.width.toNat ∧ msg.width.toNat < 2 ^ 31
      · obtain ⟨⟨hheight, hheight'⟩, hwidth, hwidth'⟩ := hpos
        rw [if_pos hheight'] at hrows
        rw [if_pos hwidth'] at hcols
        rw [MatHeader.inside_iff hheight hwidth hrows hcols hnull, hcols, Int.toNat_natCast]
        exact ⟨fun h _ _ _ _ _ => h, fun h => h hnull hheight hheight' hwidth hwidth'⟩
      · constructor
        · intro _ _ hheight hheight' hwidth hwidth'
          exact absurd ⟨⟨hheight, hheight'⟩, hwidth, hwidth'⟩ hpos
        · intro _
          apply MatHeader.inside_of_nonpos
          have hheight := msg.height.toNat_lt
          have hwidth := msg.width.toNat_lt
          dsimp only
          split_ifs at hrows hcols <;> omega
  · rw [ReceivedImage.mat, if_neg haccepts]
    constructor
    · exact fun _ hfits => absurd hfits haccepts
    · rintro - img himg
      cases himg

theorem onRaw_imshow_iff (v : ImageViewer) : (v.onRaw accepts msg).1 = .imshow img ↔
    msg.mat accepts = some img ∧ img.empty = false := by
  unfold ImageViewer.onRaw
  cases hmat : msg.mat accepts with
  | none => simp
  | some img' =>
      simp only [Option.some.injEq]
      by_cases hempty : img'.empty = true
      · rw [if_pos hempty]
        constructor
        · intro h
          cases h
        · rintro ⟨rfl, hfalse⟩
          rw [hempty] at hfalse
          cases hfalse
      · rw [if_neg hempty]
        constructor
        · intro h
          cases h
          exact ⟨rfl, Bool.not_eq_true _ ▸ hempty⟩
        · rintro ⟨rfl, -⟩
          rfl

theorem mat_of_imwrite {s : ImageSaver} {path : String} (hlatest : s.latest = some msg)
    (h : (s.saveLatest accepts).1 = .imwrite path img) : msg.mat accepts = some img := by
  unfold ImageSaver.saveLatest at h
  rw [hlatest] at h
  dsimp only at h
  split_ifs at h
  split at h
  · cases h
  · rename_i img' hmat
    rw [hmat]
    cases h
    rfl

/-- **When a subscriber stays inside the message.** Every byte of the matrices that `on_raw` and
`save_latest` hand to OpenCV lies in the data of the message exactly if the message fits. -/
theorem handed_inside_iff (accepts : Accepts) (v : ImageViewer) (s : ImageSaver)
    (msg : ReceivedImage) :
    ((∀ img, (v.onRaw accepts msg).1 = .imshow img → img.Inside msg.data) ∧
      ∀ path img, ({ s with latest := some msg }.saveLatest accepts).1 = .imwrite path img →
        img.Inside msg.data) ↔
    Fits accepts msg := by
  rw [← mat_inside_iff]
  constructor
  · rintro ⟨hviewer, -⟩ img hmat hempty
    exact hviewer img ((onRaw_imshow_iff v).mpr ⟨hmat, hempty⟩) hempty
  · intro hinside
    refine ⟨fun img himg => hinside img ((onRaw_imshow_iff v).mp himg).1, ?_⟩
    intro path img himg
    exact hinside img (mat_of_imwrite rfl himg)

/-- Two rows of two pixels are announced, and the data ends after the first. -/
def truncatedFrame : ReceivedImage where
  encoding := "bgr8"
  height := 2
  width := 2
  step := 6
  data := [1, 2, 3, 4, 5, 6]

/-- A constructor that looks at the sizes, the pointer and the step. -/
def checked : Accepts := fun rows cols null step =>
  decide (0 ≤ rows ∧ 0 ≤ cols ∧ (rows * cols = 0 ∨ null = false) ∧ (step = 0 ∨ 3 * cols ≤ step))

theorem outside_of_truncatedFrame : ∃ img path,
    (({} : ImageViewer).onRaw checked truncatedFrame).1 = .imshow img ∧
      (ImageSaver.saveLatest checked { saveDir := "Log", latest := some truncatedFrame }).1
        = .imwrite path img ∧
      ¬ img.Inside truncatedFrame.data := by
  refine ⟨⟨2, 2, 6, false⟩, "Log/frame_00001.png", by decide, by decide, ?_⟩
  intro hinside
  have hlt := hinside rfl 6 ⟨1, 0, by decide, by decide, rfl⟩
  exact absurd hlt (by decide)

end EconRos2Driver
