import DreamWeaver.Worker.Messages

/-! # The envelope of audio

Bytes that hold no document are forwarded in a document of their own. Its text is the same for all bytes up
to their base64 digits, in which no quote occurs, so that no bytes make it look like a setup. -/

namespace DreamWeaver.Worker

/-- What stands before the digits in the envelope of audio. -/
def envelopeFront : Text :=
  lit "\x7b\"realtime_input\":\x7b\"media_chunks\":[\x7b\"mime_type\":\"audio/pcm;rate=16000\",\"data\":\""

/-- What stands behind the digits. -/
def envelopeBack : Text := lit "\"\x7d]\x7d\x7d"

/-- Base64 digits are plain. -/
theorem isPlainUnit_of_mem_encodeBase64 {bytes : List UInt8} {c : CodeUnit} (h : c ∈ encodeBase64 bytes) :
    isPlainUnit c = true := by
  rcases List.mem_append.mp h with hdigit | hpadding
  · obtain ⟨n, hn, rfl⟩ := List.mem_map.mp hdigit
    have hlt := lt_of_mem_toSextets hn
    interval_cases n <;> decide
  · rw [List.eq_of_mem_replicate hpadding]
    decide

/-- **The text of the envelope.** -/
theorem stringify_audioMessage (bytes : List UInt8) :
    stringify (audioMessage bytes) = envelopeFront ++ encodeBase64 bytes ++ envelopeBack := by
  have hdata : quote (encodeBase64 bytes) = 34 :: (encodeBase64 bytes ++ [34]) := by
    rw [quote, quoteBody_of_isPlainUnit fun c hc => isPlainUnit_of_mem_encodeBase64 hc]
    rfl
  have hchunk : ownOrder [(lit "mime_type", quote (lit "audio/pcm;rate=16000")),
      (lit "data", quote (encodeBase64 bytes))] =
        [(lit "mime_type", quote (lit "audio/pcm;rate=16000")), (lit "data", quote (encodeBase64 bytes))] := rfl
  have honly : ∀ key text : Text, isArrayIndex key = false → ownOrder [(key, text)] = [(key, text)] := by
    intro key text hkey
    simp [ownOrder, hkey]
  simp only [audioMessage, stringify, stringifyItems, stringifyFields]
  rw [hchunk, honly _ _ (by decide), honly _ _ (by decide), hdata]
  simp only [objectText, membersText, elementsText, List.append_assoc, List.cons_append, List.nil_append]
  rw [envelopeFront]
  repeat rw [lit_ofList]
  rfl

/-- No quote occurs in base64 digits. -/
theorem quote_not_mem_encodeBase64 (bytes : List UInt8) : 34 ∉ encodeBase64 bytes := by
  intro hmem
  have hplain := isPlainUnit_of_mem_encodeBase64 hmem
  revert hplain
  decide

/-- A word in quotes that stands in no digits and no end of the envelope. -/
theorem not_setup_in_digits (bytes : List UInt8) :
    ¬ lit "\"setup\"" <:+: encodeBase64 bytes ++ envelopeBack := by
  rw [List.infix_append_iff_ne_nil]
  rintro (hdigits | hback | ⟨front, back, hfront, -, hword, hsuffix, -⟩)
  · have hquote : 34 ∈ lit "\"setup\"" := by decide
    exact quote_not_mem_encodeBase64 bytes (hdigits.subset hquote)
  · revert hback
    decide
  · -- the word begins with a quote, so it does not begin within the digits
    obtain ⟨c, front, rfl⟩ := List.exists_cons_of_ne_nil hfront
    obtain rfl : 34 = c := (List.cons.inj hword).1
    exact quote_not_mem_encodeBase64 bytes (hsuffix.subset List.mem_cons_self)

/-- **The envelope is not taken for a setup**, whatever the bytes are. -/
theorem not_includes_setup_envelope (bytes : List UInt8) :
    includes (stringify (audioMessage bytes)) (lit "\"setup\"") = false := by
  rw [Bool.eq_false_iff, ne_eq, includes_iff, stringify_audioMessage, List.append_assoc,
    List.infix_append_iff_ne_nil]
  rintro (hfront | hrest | ⟨front, back, hne, -, hword, hsuffix, hprefix⟩)
  · revert hfront
    rw [← includes_iff, envelopeFront, lit_ofList]
    decide +kernel
  · exact not_setup_in_digits bytes hrest
  · -- only the opening quote of the word can end the front, and then the digits are its five letters
    have hends : ∀ k < 8, (lit "\"setup\"").take k <:+ envelopeFront → k ≤ 1 := by
      rw [envelopeFront, lit_ofList, lit_ofList]
      decide +kernel
    have hlengths : 7 = front.length + back.length := by
      rw [← List.length_append, ← hword]
      rfl
    have hfront : (lit "\"setup\"").take front.length = front := by rw [hword, List.take_left]
    have hback : (lit "\"setup\"").drop front.length = back := by rw [hword, List.drop_left]
    have hone : front.length = 1 := by
      have hpos := List.length_pos_of_ne_nil hne
      have hle := hends front.length (by omega) (by rwa [hfront])
      omega
    rw [hone] at hback
    obtain ⟨rest, hdigits⟩ := hprefix
    have hletters : ((encodeBase64 bytes ++ envelopeBack).takeWhile fun c => c != 34) = encodeBase64 bytes := by
      have hall : ∀ c ∈ encodeBase64 bytes, (c != 34) = true := by
        intro c hc
        rw [bne_iff_ne]
        rintro rfl
        exact quote_not_mem_encodeBase64 bytes hc
      rw [List.takeWhile_append_of_pos hall]
      exact List.append_nil _
    rw [← hdigits, ← hback] at hletters
    have hfive := congrArg List.length hletters
    rw [length_encodeBase64] at hfive
    change 5 = _ at hfive
    omega

/-- What becomes of bytes that hold no document. -/
theorem prepare_of_binary {toUpperCase : Text → Text} {message : Payload} {bytes : List UInt8}
    (h : convertBinary message = .binary bytes) :
    prepare toUpperCase message = ⟨stringify (audioMessage bytes), true⟩ := by
  rw [prepare, h]
  dsimp only
  rw [rewriteSetup, not_includes_setup_envelope, if_neg Bool.false_ne_true]

/-- The length of the envelope. -/
theorem length_envelope (bytes : List UInt8) :
    (stringify (audioMessage bytes)).length = 84 + (bytes.length + 2) / 3 * 4 := by
  have hfront : envelopeFront.length = 79 := by
    rw [envelopeFront, lit_ofList]
    rfl
  have hback : envelopeBack.length = 5 := by decide +kernel
  rw [stringify_audioMessage, List.length_append, List.length_append, length_encodeBase64, hfront, hback]
  omega

end DreamWeaver.Worker
