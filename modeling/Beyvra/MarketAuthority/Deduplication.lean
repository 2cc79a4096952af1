import Mathlib.Data.List.DropRight
import Beyvra.MarketAuthority.Ingestion

namespace Beyvra

namespace MarketAuthority

namespace Deduplicator

def run (d : Deduplicator) (envelopes : List EventEnvelope) : Deduplicator :=
  envelopes.foldl (fun d envelope => (d.accept envelope).2) d

-- The ids for which `accept` answers True, in order; an id can come back once it has been dropped.
def acceptedIds (d : Deduplicator) : List EventEnvelope → List String
  | [] => []
  | envelope :: envelopes =>
    if (d.accept envelope).1 = true then envelope.eventId :: (d.accept envelope).2.acceptedIds envelopes
    else (d.accept envelope).2.acceptedIds envelopes

section Calls

variable {d : Deduplicator} {ids : List String} {envelope : EventEnvelope} {envelopes : List EventEnvelope}

theorem accept_maxItems : (d.accept envelope).2.maxItems = d.maxItems := by
  unfold accept
  split_ifs
  · rfl
  · exact trim_maxItems

theorem run_maxItems : (d.run envelopes).maxItems = d.maxItems := by
  induction envelopes generalizing d with
  | nil => rfl
  | cons envelope envelopes ih => exact ih.trans accept_maxItems

theorem run_recorded (h : Recorded d ids) : Recorded (d.run envelopes) (ids ++ d.acceptedIds envelopes) := by
  induction envelopes generalizing d ids with
  | nil => simpa [run, acceptedIds] using h
  | cons envelope envelopes ih =>
    by_cases hseen : envelope.eventId ∈ d.seen
    · have hkept : d.accept envelope = (false, d) := if_pos hseen
      simpa [run, acceptedIds, hkept] using ih h
    · have hpass : (d.accept envelope).1 = true := accept_fst.mpr hseen
      have hrest := ih (h.accept hseen)
      rw [List.append_assoc] at hrest
      rw [acceptedIds, if_pos hpass]
      exact hrest

theorem run_nil_recorded (maxItems : Nat) (envelopes : List EventEnvelope) :
    Recorded (run { maxItems } envelopes) (acceptedIds { maxItems } envelopes) := by
  simpa using run_recorded (Recorded.nil maxItems)

theorem seen_eq_rtake (h : Recorded d ids) : d.seen = ids.rtake d.maxItems :=
  h.seen.trans h.order

theorem seen_length (h : Recorded d ids) : d.seen.length ≤ d.maxItems := by
  rw [seen_eq_rtake h, List.rtake, List.length_drop]
  omega

theorem seen_nodup (h : Recorded d ids) : d.seen.Nodup := by
  rw [seen_eq_rtake h, List.rtake, List.nodup_iff_getElem?_ne_getElem?]
  intro i j hlt hj heq
  rw [List.length_drop] at hj
  obtain ⟨id, hid⟩ : ∃ id, ids[ids.length - d.maxItems + j]? = some id :=
    ⟨_, List.getElem?_eq_getElem (by omega)⟩
  rw [List.getElem?_drop, List.getElem?_drop, hid] at heq
  have hfar := h.distinct _ _ id (by omega) heq hid
  omega

end Calls

theorem accept_iff_not_recent (maxItems : Nat) (envelopes : List EventEnvelope) :
    (∀ envelope, ((run { maxItems } envelopes).accept envelope).1 = true ↔
        envelope.eventId ∉ (acceptedIds { maxItems } envelopes).rtake maxItems) ∧
      (∀ id, id ∈ (run { maxItems } envelopes).seen ↔ id ∈ (run { maxItems } envelopes).order) ∧
        ((run { maxItems } envelopes).seen.Nodup ∧ (run { maxItems } envelopes).order.Nodup) ∧
          (run { maxItems } envelopes).seen.length ≤ maxItems ∧
            (run { maxItems } envelopes).order.length ≤ maxItems := by
  have h := run_nil_recorded maxItems envelopes
  have hmax : (run { maxItems } envelopes).maxItems = maxItems := run_maxItems
  have hlength := seen_length h
  rw [hmax] at hlength
  refine ⟨fun envelope => ?_, fun id => by rw [h.seen], ⟨seen_nodup h, h.seen ▸ seen_nodup h⟩, hlength,
    h.seen ▸ hlength⟩
  rw [accept_fst, seen_eq_rtake h, hmax]

example : acceptedIds { maxItems := 1 } [⟨"a"⟩, ⟨"a"⟩, ⟨"b"⟩, ⟨"a"⟩] = ["a", "b", "a"] := by decide

end Deduplicator

end MarketAuthority

end Beyvra
