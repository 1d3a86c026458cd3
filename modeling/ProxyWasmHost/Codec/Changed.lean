/-
  A source that changes between the two walks of the encoder.

  The encoder compares only the size of what the second walk wrote with the size
  that the first walk measured. It also panics, where it cannot make a vector of
  the size measured or the second walk outgrows it.
-/
import ProxyWasmHost.Codec.RoundTrip

namespace ProxyWasmHost.Codec

variable {source : PairSource}

/-- The second walk of `source` begins with the pairs of its first. -/
def PairSource.Begins (source : PairSource) : Prop :=
  source.second.take source.first.length = source.first

instance (source : PairSource) : Decidable source.Begins :=
  inferInstanceAs (Decidable (_ = _))

/-- What the encoder promises of a source: bytes only when the second walk begins
    with the first, and then those that decode to the first; else an error. -/
def EncodesAsMeasured (source : PairSource) : Prop :=
  (∀ bytes, encodeVisited source = .ok bytes →
    decodePairs bytes .unlimited = .ok source.first ∧ source.Begins) ∧
  (¬ source.Begins → ∃ e, encodeVisited source = .err e)

/-- The vector made for the size of the first walk takes what the second writes. -/
def Room (source : PairSource) : Prop :=
  ((headed source.first).extendAll isizeMax
    ((source.second.take source.first.length).flatMap fun p => pieces p.1 p.2)).isSome

/-- The second walk begins with the pairs of the first; or the first walk is refused;
    or it measures, and the size of what the second writes, which the vector takes,
    gives the change away. -/
def ChangeShows (source : PairSource) : Prop :=
  source.Begins ∨ Refused source.first ∨
    (Measures source.first ∧ Room source ∧
      (body (source.second.take source.first.length)).length ≠ (body source.first).length)

theorem begins_nil (h : source.first = []) : source.Begins := by
  rw [PairSource.Begins, h]
  rfl

theorem decodePairs_mixed (hm : Measures source.first) (hb : source.Begins) :
    decodePairs (mixed source) .unlimited = .ok source.first := by
  rw [mixed, hb]
  have hd : (header source.first ++ body source.first).length ≤ usizeMax := by
    rw [length_encoded]; exact Nat.le_trans hm.2 isizeMax_le
  exact (decodePairs_ok_iff hd not_blank_encoded).2 ⟨hm.1, rfl⟩

/-- A refused first walk measures nothing that bytes are answered for. -/
theorem not_measures_of_refused (h : Refused source.first) : ¬ Measures source.first := by
  rintro ⟨⟨hn, hf⟩, hs⟩
  have hlimit := isizeMax_le
  rcases h with ⟨p, hp, hnot⟩ | ⟨-, hlarge⟩
  · exact hnot (hf p (List.mem_of_mem_take hp))
  · omega

/-- Where the change shows, bytes are answered only when there is none. -/
theorem begins_of_shows {bytes : Bytes} (hc : ChangeShows source)
    (h : encodeVisited source = .ok bytes) :
    decodePairs bytes .unlimited = .ok source.first ∧ source.Begins := by
  rcases encodeVisited_ok_iff.1 h with ⟨h0, rfl⟩ | ⟨-, hm, hsize, rfl⟩
  · exact ⟨by rw [h0]; exact decodePairs_blank (.inl rfl), begins_nil h0⟩
  · have hsame : source.Begins := by
      rcases hc with hbegins | hrefused | ⟨-, -, hdiffers⟩
      · exact hbegins
      · exact absurd hm (not_measures_of_refused hrefused)
      · exact absurd hsize hdiffers
    exact ⟨decodePairs_mixed hm hsame, hsame⟩

/-- Where the change shows, it is answered with an error. -/
theorem error_of_shows (hc : ChangeShows source) (hchanged : ¬ source.Begins) :
    ∃ e, encodeVisited source = .err e := by
  rcases hc with hbegins | hrefused | ⟨hm, hroom, hdiffers⟩
  · exact absurd hbegins hchanged
  · exact encodeVisited_of_refused hrefused
  · obtain ⟨out, hout⟩ := Option.isSome_iff_exists.1 hroom
    rw [encodeVisited_of_measures (mt begins_nil hchanged) hm,
      show written source = some out from hout]
    exact ⟨.changed, if_neg (by rw [items_of_written hout]; exact mt length_mixed_iff.1 hdiffers)⟩

/-- Where an error is answered, the first walk is refused or the change shows. -/
theorem shows_of_error {e : EncodeError} (hchanged : ¬ source.Begins)
    (h : encodeVisited source = .err e) : ChangeShows source := by
  by_cases hr : Refused source.first
  · exact .inr (.inl hr)
  by_cases hm : Measures source.first
  · rw [encodeVisited_of_measures (mt begins_nil hchanged) hm] at h
    cases hout : written source with
    | none => rw [hout] at h; cases h
    | some out =>
      have hroom : Room source := Option.isSome_iff_exists.2 ⟨out, hout⟩
      refine .inr (.inr ⟨hm, hroom, fun hsize => ?_⟩)
      rw [hout] at h
      dsimp only at h
      rw [if_pos (by rw [items_of_written hout]; exact length_mixed_iff.2 hsize)] at h
      cases h
  · rw [encodeVisited_of_outgrown hr hm] at h
    cases h

/-- **When a change between the walks is refused**: the encoder keeps its promise
    exactly for the sources whose change shows in the size it compares, and that do
    not make it panic. -/
theorem encodesAsMeasured_iff (source : PairSource) :
    EncodesAsMeasured source ↔ ChangeShows source := by
  constructor
  · intro h
    by_cases hbegins : source.Begins
    · exact .inl hbegins
    · obtain ⟨e, he⟩ := h.2 hbegins
      exact shows_of_error hbegins he
  · intro hc
    exact ⟨fun _ => begins_of_shows hc, error_of_shows hc⟩

/-- A name and a value that each change to one of the same length go unnoticed. -/
theorem change_of_equal_size_encoded : ¬ ∀ source : PairSource, EncodesAsMeasured source := by
  intro h
  have hok : encodeVisited ⟨[([107], [118])], [([120], [121])]⟩ =
      .ok [1, 0, 0, 0, 1, 0, 0, 0, 1, 0, 0, 0, 120, 0, 121, 0] := by decide
  exact absurd ((h _).1 _ hok).2 (by decide)

end ProxyWasmHost.Codec
