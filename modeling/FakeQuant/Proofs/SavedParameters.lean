import FakeQuant.Binary.Encoding
import FakeQuant.Proofs.JsonRecords
import FakeQuant.Proofs.Writers

/-!
# Saved parameters are loaded again

A text that parameters are saved as holds two lists of numbers, each number on a line of its own.
`Parameters.decoder_json` reads it back: each list is read item by item and the two fields come in
the order in which they are asked for.

So the parameters of a quantizer survive being saved to a place and loaded from there, bit for bit,
if all of them are finite (`Quantizer.load_restores_saved`).
-/

namespace FakeQuant

open Json

/-- A finite number is an item of a list. -/
theorem readsBack_single {x : Single} (hx : x.isFinite = true) :
    ReadsBack Json.single (Layout.json.chars x) x where
  read := by
    intro blanks rest hblanks hrest
    rw [← single_chars hx hrest, Json.single]
    simp only [bind, StateT.bind, peek_blanks hblanks]
  head := by
    obtain ⟨c, cs, hcs, hc⟩ := exists_head hx
    refine ⟨c, cs, hcs, isBlank_of_startsNumber hc, ?_⟩
    rintro rfl
    cases hc

/-- The text of finite parameters is read back. -/
theorem Parameters.decoder_json {p : Parameters} (hscale : ∀ x ∈ p.scale.values, x.isFinite = true)
    (hzeroPoint : ∀ x ∈ p.zeroPoint.values, x.isFinite = true) (rest : List Char) :
    Parameters.decoder (p.json ++ rest) = .ok (p.renewed, rest) := by
  have hlist (xs : List Single) (hxs : ∀ x ∈ xs, x.isFinite = true) (rest : List Char) :
      Json.list Json.single ((' ' :: numbersChars 1 xs) ++ rest) = .ok (xs, rest) :=
    list_spread (fun x hx => readsBack_single (hxs x hx)) 1 (show AllBlank [' '] from rfl) rest
  have hscaleName : IsPlainName "scale" := by decide
  have hzeroName : IsPlainName "zero_point" := by decide
  have hpair := pair_spread hscaleName hzeroName (by decide) (hlist p.scale.values hscale)
    (hlist p.zeroPoint.values hzeroPoint) rest
  rw [Parameters.decoder, Parameters.json, bind_eq_of_ok hpair]
  rfl

theorem Parameters.ofText_json {p : Parameters} (hscale : ∀ x ∈ p.scale.values, x.isFinite = true)
    (hzeroPoint : ∀ x ∈ p.zeroPoint.values, x.isFinite = true) :
    Parameters.ofText (String.ofList p.json) = .ok p.renewed := by
  have hdecoder := decoder_json hscale hzeroPoint []
  rw [List.append_nil] at hdecoder
  have hrun : Parameters.decoder.run (String.ofList p.json) = .ok p.renewed := by
    rw [Decoder.run, String.toList_ofList]
    show (Parameters.decoder p.json >>= _) = _
    rw [hdecoder]
    rfl
  rw [Parameters.ofText, hrun]

namespace Place

/-- A text that was written to a place is there. -/
theorem read_write {place written : Place} {text : String} (h : place.write text = .ok written) :
    written.read = .ok text := by
  cases place with
  | nowhere => cases h
  | vacant | holding bytes =>
    cases h
    have hbytes : String.fromUTF8? text.toUTF8 = some text := dif_pos text.isValidUTF8
    rw [read, hbytes]

end Place

namespace Quantizer

variable {σ τ : Type}

/-- **Saved parameters survive**: finite scales and zero points, one each for every channel, are
written to any place whose folder exists, and every quantizer with as many channels loads them from
there. It then has each of them bit for bit, in new rows, and is otherwise as before. -/
theorem load_restores_saved {q : Quantizer σ} {target : Quantizer τ} {place : Place}
    (hplace : place ≠ .nowhere) (hscale : ∀ x ∈ q.parameters.scale.values, x.isFinite = true)
    (hzeroPoint : ∀ x ∈ q.parameters.zeroPoint.values, x.isFinite = true)
    (hlength : q.parameters.HasLength q.channels) (hchannels : target.channels = q.channels) :
    ∃ written, q.save place = .ok written ∧
      target.load written = .ok (target.replaceParameters q.parameters.renewed) := by
  obtain ⟨written, hwritten⟩ : ∃ written, q.save place = .ok written := by
    cases place with
    | nowhere => exact absurd rfl hplace
    | vacant => exact ⟨_, rfl⟩
    | holding bytes => exact ⟨_, rfl⟩
  refine ⟨written, hwritten, load_eq_ok.2 ⟨q.saved, q.parameters.renewed, ?_, ?_, ?_, rfl⟩⟩
  · exact Place.read_write hwritten
  · exact Parameters.ofText_json hscale hzeroPoint
  · rw [hchannels]
    exact ⟨hlength.scale, hlength.zeroPoint⟩

/-- Three channels with the number whose decimal is nearest to the end of its interval, the least
and the largest number, a negative zero and a negative subnormal, for another kind of quantizer. -/
theorem load_restores_saved_extremes :
    let q : Quantizer ConstantObserver :=
      { grid := ⟨0, 15, by decide⟩
        parameters :=
          ⟨.ofList [.ofBits 0x15ae43fd, .ofBits 1, .ofBits 0x7f7fffff],
            .ofList [.zero true, .ofBits 0x80000001, 3]⟩
        mode := .learning, gradientScaling := .disabled
        observer := .perTensor 1 0 .quint8 }
    let target : Quantizer ConstantObserver :=
      { q with parameters := .uniform 3 1 .nan, mode := .disabled }
    ∃ written, q.save .vacant = .ok written ∧
      target.load written = .ok (target.replaceParameters q.parameters.renewed) := by
  intro q target
  exact load_restores_saved (by simp) (by decide +kernel) (by decide +kernel) ⟨rfl, rfl⟩ rfl

end Quantizer

end FakeQuant
