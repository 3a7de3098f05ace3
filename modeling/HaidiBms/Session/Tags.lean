import HaidiBms.Events
import HaidiBms.Session.Watching

/-!
# Every event is read as it was written

An event is built in a few places, each with the union member that its command is decoded into, or with none where the event is no answer. Only requests for known commands are ever queued, so none of these places is reached without a decoder.
-/

namespace Haidi

variable {capacity : ℕ+}

/-- An event that ends a request for a known command. -/
theorem Ending.sound {bms : HaidiBMS capacity} {event : Event} (h : Ending bms event)
    (hknown : isKnownDataId bms.head.id = true) : event.Sound := by
  cases h with
  | acknowledged data hid _ =>
      refine .response rfl rfl ?_
      rcases hid with hid | hid <;> rw [hid] <;> rfl
  | refused data hid => exact .refused hid 1 _
  | decoded data payload _ _ hdecoded => exact .response rfl rfl (decodeSingle_member hdecoded)
  | undecoded data hsingle hmos hnone => exact absurd hnone (decodeSingle_known hknown hsingle hmos data)
  | assembled payload _ _ hassembled => exact .response rfl rfl (decodeMulti_member hassembled)
  | unassembled hmulti hstream hnone =>
      obtain ⟨payload, hpayload⟩ := decodeMulti_isSome ⟨hmulti, hstream⟩
        (bms.assembly.toList.drop (payloadWindow bms bms.head.id).1) (payloadWindow bms bms.head.id).2
      rw [hnone] at hpayload
      cases hpayload
  | truncated _ => exact .silent nofun nofun nofun
  | timeout _ _ => exact .silent nofun nofun nofun

theorem Event.Sound.rejection {event : Event} (h : event.isRejection = true) : event.Sound := by
  rcases event with ⟨kind, id, error, retries, frames, payload⟩
  cases kind <;> cases error <;> first | (cases h; done) | exact .silent nofun nofun nofun

/-- What is raised is sound. -/
def RaisesSound (_ : List (Entry capacity)) (entry : Entry capacity) : Prop :=
  ∀ event, entry.obs = .raised event → event.Sound

theorem sound_watch : Watch (fun (_ : List (Entry capacity)) _ => True) RaisesSound where
  same := fun _ _ => trivial
  push := fun _ _ _ _ => trivial
  aside := fun _ _ _ => trivial
  began := fun _ _ => trivial
  single := fun _ _ => trivial
  collect := fun _ _ _ _ _ => trivial
  file := fun _ _ _ => trivial
  expired := fun _ _ _ => trivial
  permits := by
    intro past entry hroutine event hobs
    rw [hobs] at hroutine
    cases hroutine
  invoke := fun _ _ _ _ _ hobs => nomatch hobs
  reject := by
    intro past bms event hrejection event' hobs
    cases hobs
    exact .rejection hrejection
  deliver := by
    intro past bms record event hobs
    cases hobs
    exact .response rfl rfl rfl
  finish := by
    intro past bms event _ hknown hending event' hobs
    cases hobs
    exact hending.sound hknown

/-- Whatever is called and at whatever depth, decoders and accessors agree on every event: no command is without a decoder, a response is read by exactly one per-command accessor, no accessor answers for a command it does not document, and none exposes a member other than the one written last. -/
theorem run_raises_sound (react : World capacity → Handler → Event → List Call) (nesting : Nat)
    (hostAddress : HostAddress) (bmsAddress : UInt8) (calls : List Call) :
    History.Everywhere RaisesSound (run (.nested react nesting) (World.new hostAddress bmsAddress) calls).log :=
  (sound_watch.run react nesting hostAddress bmsAddress calls).permitted

end Haidi
