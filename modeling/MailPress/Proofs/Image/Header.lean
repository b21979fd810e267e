import Mathlib.Algebra.Order.Ring.Nat
import Mathlib.Data.List.Induction
import MailPress.Image.Header

/-!
# Sizes of images fit 32 bits

Whatever a file holds, a size that is read from its header has a width and a height of at most
32 bits: the lengths are read from four bytes at most.
-/

namespace MailPress
namespace Image

/-- Whether both lengths have at most 32 bits. -/
def Size.Fits (size : Size) : Prop :=
  size.width < 0x100000000 ∧ size.height < 0x100000000

instance (size : Size) : Decidable size.Fits :=
  inferInstanceAs (Decidable (_ ∧ _))

theorem bigEndian_lt (bytes : List UInt8) : bigEndian bytes < 256 ^ bytes.length := by
  induction bytes using List.reverseRecOn with
  | nil => decide
  | append_singleton bytes byte inductionHypothesis =>
      have small := byte.toNat_lt
      rw [bigEndian, List.foldl_append, List.length_append, List.length_singleton, Nat.pow_succ]
      change bigEndian bytes * 256 + byte.toNat < _
      omega

theorem bigEndian_lt_of_length_le {bytes : List UInt8} (short : bytes.length ≤ 4) :
    bigEndian bytes < 0x100000000 :=
  Nat.lt_of_lt_of_le (bigEndian_lt bytes) (Nat.pow_le_pow_right (by decide) short)

/-- A field of a file is less than its bytes allow. -/
theorem field?_lt
    {bytes : List UInt8}
    {start length value : Nat}
    (found : field? bytes start length = some value) :
    value < 256 ^ length := by
  unfold field? slice? at found
  dsimp only at found
  split at found
  · next long =>
      rw [← Option.some.inj found, littleEndian]
      have small := bigEndian_lt ((bytes.drop start).take length).reverse
      rwa [List.length_reverse, long] at small
  · cases found

/-- A field of at most four bytes fits 32 bits. -/
theorem field?_lt_of_le
    {bytes : List UInt8}
    {start length value : Nat}
    (short : length ≤ 4)
    (found : field? bytes start length = some value) :
    value < 0x100000000 :=
  Nat.lt_of_lt_of_le (field?_lt found) (Nat.pow_le_pow_right (by decide) short)

/-- A size is one that fits, if there is one. -/
def AllFit (found : Option Size) : Prop :=
  ∀ size, found = some size → size.Fits

theorem allFit_none : AllFit none := by
  intro size found
  cases found

theorem allFit_some {size : Size} (fits : size.Fits) : AllFit (some size) := by
  intro other found
  exact Option.some.inj found ▸ fits

theorem allFit_ite
    {condition : Prop}
    [Decidable condition]
    {first second : Option Size}
    (one : condition → AllFit first)
    (other : ¬condition → AllFit second) :
    AllFit (if condition then first else second) := by
  split
  · next holds => exact one holds
  · next fails => exact other fails

theorem allFit_bind
    {α : Type}
    {first : Option α}
    {next : α → Option Size}
    (fit : ∀ value, first = some value → AllFit (next value)) :
    AllFit (first.bind next) := by
  intro size found
  obtain ⟨value, there, found⟩ := Option.bind_eq_some_iff.mp found
  exact fit value there size found

theorem allFit_pngSize? (body : List UInt8) : AllFit (pngSize? body) := by
  unfold pngSize?
  split
  · next a b c d e f g h _ _ _ _ _ =>
      exact allFit_ite (fun _ => allFit_none) fun _ => allFit_ite (fun _ => allFit_none)
        fun _ => allFit_some ⟨bigEndian_lt_of_length_le (by simp), bigEndian_lt_of_length_le (by simp)⟩
  · exact allFit_none

theorem allFit_png? (bytes : List UInt8) : AllFit (png? bytes) := by
  unfold png?
  refine allFit_bind fun _ _ => allFit_bind fun _ _ => allFit_bind fun _ _ => allFit_bind fun _ _ => ?_
  exact allFit_ite (fun _ => allFit_pngSize? _) fun _ => allFit_none

theorem allFit_jpegSize? (body : List UInt8) : AllFit (jpegSize? body) := by
  unfold jpegSize?
  split
  · exact allFit_ite (fun _ => allFit_some
      ⟨bigEndian_lt_of_length_le (by simp), bigEndian_lt_of_length_le (by simp)⟩)
        fun _ => allFit_none
  · exact allFit_none

theorem allFit_jpegSegments (limit : Nat) :
    ∀ (size : Option Size) (bytes : List UInt8), AllFit size →
      AllFit (jpegSegments size limit bytes) := by
  induction limit with
  | zero => exact fun _ _ _ => allFit_none
  | succ limit inductionHypothesis =>
      intro size bytes fit
      unfold jpegSegments
      split
      · exact allFit_none
      · split
        · exact allFit_none
        · refine allFit_ite (fun _ => allFit_none) fun _ => ?_
          split
          · exact allFit_none
          · next body _ =>
              refine allFit_ite (fun _ => allFit_ite (fun _ => fit) fun _ => allFit_none) fun _ => ?_
              refine allFit_ite (fun _ => ?_) fun _ => inductionHypothesis _ _ fit
              cases frame : jpegSize? body with
              | none => exact allFit_none
              | some found =>
                  exact inductionHypothesis _ _ (frame ▸ allFit_jpegSize? body)

theorem allFit_jpeg? (bytes : List UInt8) : AllFit (jpeg? bytes) := by
  unfold jpeg?
  split
  · exact allFit_jpegSegments _ _ _ allFit_none
  · exact allFit_none

theorem allFit_gif? (bytes : List UInt8) : AllFit (gif? bytes) := by
  unfold gif?
  refine allFit_bind fun _ _ => allFit_bind fun width wide => allFit_bind fun height high => ?_
  refine allFit_bind fun _ _ => allFit_bind fun _ _ => ?_
  exact allFit_ite (fun _ => allFit_some
    ⟨field?_lt_of_le (by decide) wide, field?_lt_of_le (by decide) high⟩) fun _ => allFit_none

theorem allFit_bmpCore? (bytes : List UInt8) : AllFit (bmpCore? bytes) := by
  unfold bmpCore?
  refine allFit_bind fun width wide => allFit_bind fun height high => allFit_bind fun _ _ => ?_
  refine allFit_bind fun _ _ => allFit_bind fun _ _ => ?_
  exact allFit_ite (fun _ => allFit_some
    ⟨field?_lt_of_le (by decide) wide, field?_lt_of_le (by decide) high⟩) fun _ => allFit_none

theorem signed_bounds {value : Nat} (small : value < 0x100000000) :
    -0x80000000 ≤ signed value ∧ signed value < 0x80000000 := by
  unfold signed
  split <;> omega

theorem allFit_bmpInfo? (bytes : List UInt8) (headerLength : Nat) :
    AllFit (bmpInfo? bytes headerLength) := by
  unfold bmpInfo?
  refine allFit_bind fun width wide => allFit_bind fun height high => allFit_bind fun _ _ => ?_
  refine allFit_bind fun _ _ => allFit_bind fun _ _ => allFit_bind fun _ _ => ?_
  refine allFit_bind fun _ _ => allFit_ite (fun _ => allFit_none) fun _ => ?_
  refine allFit_ite (fun _ => allFit_none) fun _ => ?_
  refine allFit_ite (fun _ => allFit_some ⟨?_, ?_⟩) fun _ => allFit_none
  · have bounds := signed_bounds (field?_lt_of_le (by decide) wide)
    dsimp only
    omega
  · have bounds := signed_bounds (field?_lt_of_le (by decide) high)
    dsimp only
    omega

theorem allFit_bmp? (bytes : List UInt8) : AllFit (bmp? bytes) := by
  unfold bmp?
  refine allFit_bind fun _ _ => allFit_bind fun _ _ => ?_
  refine allFit_ite (fun _ => allFit_none) fun _ => ?_
  refine allFit_ite (fun _ => allFit_bmpCore? bytes) fun _ => ?_
  exact allFit_ite (fun _ => allFit_bmpInfo? bytes _) fun _ => allFit_none

theorem allFit_webpLossy? (body : List UInt8) : AllFit (webpLossy? body) := by
  unfold webpLossy?
  refine allFit_bind fun _ _ => allFit_bind fun _ _ => allFit_bind fun width _ => ?_
  refine allFit_bind fun height _ => allFit_ite (fun _ => allFit_some ⟨?_, ?_⟩) fun _ => allFit_none
  · dsimp only
    omega
  · dsimp only
    omega

theorem allFit_webpLossless? (body : List UInt8) : AllFit (webpLossless? body) := by
  unfold webpLossless?
  refine allFit_bind fun _ _ => allFit_bind fun header _ => ?_
  refine allFit_ite (fun _ => allFit_some ⟨?_, ?_⟩) fun _ => allFit_none
  · dsimp only
    omega
  · dsimp only
    omega

theorem allFit_webpExtended? (body : List UInt8) : AllFit (webpExtended? body) := by
  unfold webpExtended?
  refine allFit_bind fun _ _ => allFit_bind fun width wide => allFit_bind fun height high => ?_
  refine allFit_ite (fun _ => allFit_some ⟨?_, ?_⟩) fun _ => allFit_none
  · have small : width < 0x1000000 := field?_lt wide
    dsimp only
    omega
  · have small : height < 0x1000000 := field?_lt high
    dsimp only
    omega

theorem allFit_webp? (bytes : List UInt8) : AllFit (webp? bytes) := by
  unfold webp?
  refine allFit_bind fun _ _ => allFit_bind fun _ _ => allFit_bind fun _ _ => ?_
  refine allFit_bind fun _ _ => allFit_ite (fun _ => allFit_none) fun _ => ?_
  refine allFit_ite (fun _ => allFit_webpLossy? _) fun _ => ?_
  refine allFit_ite (fun _ => allFit_webpLossless? _) fun _ => ?_
  exact allFit_ite (fun _ => allFit_webpExtended? _) fun _ => allFit_none

/-- A size that is read in a format fits. -/
theorem allFit_size? (format : Format) (bytes : List UInt8) : AllFit (format.size? bytes) := by
  cases format with
  | png => exact allFit_png? bytes
  | jpeg => exact allFit_jpeg? bytes
  | gif => exact allFit_gif? bytes
  | webp => exact allFit_webp? bytes
  | bmp => exact allFit_bmp? bytes

/-- A size that is read from bytes fits. -/
theorem allFit_sizeOfBytes? (bytes : List UInt8) : AllFit (sizeOfBytes? bytes) :=
  allFit_bind fun format _ => allFit_size? format bytes

end Image
end MailPress
