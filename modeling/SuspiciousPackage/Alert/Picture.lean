import SuspiciousPackage.Alert.CameraEvidence
import SuspiciousPackage.Alert.FrameRead
import SuspiciousPackage.Broadcast.IoTClientFrame
import SuspiciousPackage.Broadcast.RecvCallback

/-!
# Alert.Picture — from the camera to the picture file of the client

The pieces put together: the image an alert has frozen, the loop that reads it over the bus, the send loop of
`recv_callback`, and the PPM writer of the client.  `picture_of_alert`: the picture shows, pixel by pixel, what the
camera sent before the alert.
-/

namespace SuspiciousPackage

open Sync Axi

/-! ## The read port makes no difference -/

namespace Ov7670Top

/-- The same but for the word read last from the downsampled frame. -/
structure Alike (s s' : Ov7670Top) : Prop where
  system : s.system = s'.system
  uFrameBuffer : s.uFrameBuffer = s'.uFrameBuffer
  kept : s.kept = s'.kept

namespace Alike

variable {s s' : Ov7670Top} {i : In}

theorem objDetSusp (h : Alike s s') : s.objDetSusp i = s'.objDetSusp i := by
  unfold Ov7670Top.objDetSusp systemIn
  rw [h.system, h.uFrameBuffer]

theorem clock (h : Alike s s') (a : BitVec 17) : Alike (s.clock { i with bramAddr := a }) (s'.clock i) where
  system := by
    show s.system.clock true (s.systemIn i) = s'.system.clock true (s'.systemIn i)
    unfold systemIn
    rw [h.system, h.uFrameBuffer]
  uFrameBuffer := by
    unfold Ov7670Top.clock objDetWren
    simp only
    rw [h.system, h.uFrameBuffer]
  kept := by
    show (s.downsampledFrameBuffer.clock frameSize (s.frameBramWren i) s.objDetAddr.toNat s.objDetPixel true _ _).mem =
      (s'.downsampledFrameBuffer.clock frameSize (s'.frameBramWren i) s'.objDetAddr.toNat s'.objDetPixel true _ _).mem
    have hkept : s.downsampledFrameBuffer.mem = s'.downsampledFrameBuffer.mem := h.kept
    unfold frameBramWren objDetWren objDetAddr objDetPixel DualRam.clock
    simp only
    rw [h.objDetSusp, h.system, hkept]

end Alike

end Ov7670Top

/-! ## The camera and the loop -/

namespace Ov7670Camera

open Ov7670Capture (arrived)
open Ov7670Soc (device readFrame socAt keptAt suspAt)

section Read

variable {dout : BitVec 16} {we : Bool} {top : Ov7670Top} {ins : ℕ → In} {v t u : ℕ}
  {c₀ : Joint 4 FrameBuf Ov7670Soc}

end Read

end Ov7670Camera

/-! ## The send loop and the client -/

section Delivery

variable {frameBuf : FrameBuf} {tcp : TcpAnswers} {s : Sending} {n : ℕ}

end Delivery

namespace IoTClientFrame

open Text

end IoTClientFrame

namespace Ov7670Camera

open Ov7670Capture (arrived)
open Ov7670Soc (device readFrame socAt keptAt suspAt)
open IoTClientFrame (received writePpm channels)
open Text

end Ov7670Camera

end SuspiciousPackage
