import Keyspace.Config
import Keyspace.Proofs.Stream.Delivery

/-! # Acceptance: a line that fits is read, where the limit leaves room for the threshold -/
namespace Keyspace
open Text
set_option autoImplicit false

namespace LineReader

/-- Reading line after line, and again where the stream fails, gives these texts. -/
inductive Reads : LineReader → List String → LineReader → Prop
  | done (r : LineReader) : Reads r [] r
  | text {r next final : LineReader} {text : String} {texts : List String}
      (hRead : r.readLine = (.ok (some text), next)) (hRest : Reads next texts final) :
      Reads r (text :: texts) final
  | failure {r next final : LineReader} {fault : Fault} {texts : List String}
      (hRead : r.readLine = (.error (.io fault), next)) (hRest : Reads next texts final) :
      Reads r texts final

/-- Whatever arrives, in whatever pieces: where the lines before it have been read, a line with a
newline at its end is read too if it fits. A failure of the stream may be told of first. -/
def TakesFitting (limit : UInt64) : Prop :=
  ∀ (source : Source) (texts : List String) (r : LineReader) (line : Bytes) (after : List Bytes)
    (text : String), source.Filled → Reads (ofSource source limit) texts r →
    (source.bytes.splitOn newline).drop texts.length = line :: after → after ≠ [] →
    dropReturn line = utf8 text → (utf8 text).length ≤ limit.toNat →
    (r.readLine.1 = .ok (some text) ∨
        ∃ fault ∈ source.failures, r.readLine.1 = .error (.io fault)) ∧
      ∃ next, Reads r [text] next

variable {r final : LineReader} {limit : UInt64} {ended : Bool} {line bytes rest : Bytes}
  {after : List Bytes} {failures left : List Fault} {fault : Fault} {text : String}
  {texts : List String}

theorem failure?_complete (limit : UInt64) (line : Bytes) :
    failure? (complete limit line) = none := by
  rw [complete]
  split
  · rfl
  · exact (tells_decode line).failure?_eq_none

theorem Call.of_text {count : Nat}
    (h : Call limit ended bytes failures (.ok (some text)) rest left)
    (hPieces : (bytes.splitOn newline).drop (count + 1) = line :: after) :
    (rest.splitOn newline).drop count = line :: after ∧ left = failures := by
  generalize hResult : Result.ok (some text) = result at h
  cases h with
  | line hLine =>
    rw [List.splitOn_append_cons_self_of_not_mem hLine, List.drop_succ_cons] at hPieces
    exact ⟨hPieces, rfl⟩
  | last _ _ hLine =>
    rw [List.splitOn_eq_singleton hLine, List.drop_succ_cons, List.drop_nil] at hPieces
    cases hPieces
  | long | failure | stalled | ended => cases hResult

theorem Call.of_failure (h : Call limit ended bytes failures (.error (.io fault)) rest left) :
    rest = bytes ∧ left <:+ failures := by
  generalize hResult : Result.error (Error.io fault) = result at h
  have hFailure : failure? result = some fault := hResult ▸ rfl
  cases h with
  | line =>
    rw [failure?_complete] at hFailure
    cases hFailure
  | last =>
    rw [(tells_decode _).failure?_eq_none] at hFailure
    cases hFailure
  | failure => exact ⟨rfl, List.suffix_cons _ _⟩
  | stalled => exact ⟨rfl, List.suffix_rfl⟩
  | long | ended => cases hResult

/-- As many lines as were given are gone from what is awaited, and failures alone are gone with
them. -/
theorem Reads.awaited (h : Reads r texts final) (hFilled : r.source.Filled)
    (hLimit : r.limit.toNat + 1 < UInt64.size)
    (hPieces : (r.awaited.splitOn newline).drop texts.length = line :: after) :
    r.Continues final ∧ final.source.Filled ∧ final.awaited.splitOn newline = line :: after ∧
      final.source.failures <:+ r.source.failures := by
  induction h with
  | done r => exact ⟨.refl r, hFilled, hPieces, List.suffix_rfl⟩
  | text hRead _ ih =>
    obtain ⟨hContinues, hNext, hCall⟩ := comes_readLine hFilled hLimit
    rw [hRead] at hContinues hNext hCall
    obtain ⟨hRest, hLeft⟩ := hCall.of_text hPieces
    obtain ⟨hMore, hLast, hAwaited, hSuffix⟩ := ih hNext (hContinues.limit ▸ hLimit) hRest
    exact ⟨hContinues.trans hMore, hLast, hAwaited, hLeft ▸ hSuffix⟩
  | failure hRead _ ih =>
    obtain ⟨hContinues, hNext, hCall⟩ := comes_readLine hFilled hLimit
    rw [hRead] at hContinues hNext hCall
    obtain ⟨hSame, hLeft⟩ := hCall.of_failure
    rw [← hSame] at hPieces
    obtain ⟨hMore, hLast, hAwaited, hSuffix⟩ := ih hNext (hContinues.limit ▸ hLimit) hPieces
    exact ⟨hContinues.trans hMore, hLast, hAwaited, hSuffix.trans hLeft⟩

theorem exists_of_splitOn (h : bytes.splitOn newline = line :: after) (hAfter : after ≠ []) :
    newline ∉ line ∧ ∃ rest, bytes = line ++ newline :: rest := by
  by_cases hMem : newline ∈ bytes
  · obtain ⟨first, rest, rfl, hFirst⟩ := List.eq_append_cons_of_mem hMem
    rw [List.splitOn_append_cons_self_of_not_mem hFirst] at h
    cases h
    exact ⟨hFirst, rest, rfl⟩
  · rw [List.splitOn_eq_singleton hMem] at h
    cases h
    exact absurd rfl hAfter

/-- A line that fits is not too long before its newline arrives either: there is one byte of room
for the return at its end. -/
theorem readLine_of_fitting (hFilled : r.source.Filled)
    (hLimit : r.limit.toNat + 1 < UInt64.size) (hAwaited : r.awaited = line ++ newline :: rest)
    (hLine : newline ∉ line) (hText : dropReturn line = utf8 text)
    (hFits : (utf8 text).length ≤ r.limit.toNat) :
    (∃ next, r.readLine = (.ok (some text), next)) ∨
      ∃ fault next, r.readLine = (.error (.io fault), next) ∧ r.Continues next ∧
        next.source.Filled ∧ next.awaited = r.awaited ∧
        r.source.failures = fault :: next.source.failures := by
  obtain ⟨hContinues, hNext, hCall⟩ := comes_readLine hFilled hLimit
  rw [hAwaited] at hCall
  rcases hCall.of_line hLine with ⟨hResult, -⟩ | ⟨hLong, -⟩ | ⟨fault, hFailures, hResult, hRest⟩
  · rw [hText, complete, if_neg (Nat.not_lt.mpr hFits), decode, ofUtf8?_utf8] at hResult
    exact .inl ⟨_, Prod.ext hResult rfl⟩
  · have hLength := length_le_dropReturn line
    rw [hText] at hLength
    omega
  · exact .inr ⟨fault, _, Prod.ext hResult rfl, hContinues, hNext, hRest.trans hAwaited.symm,
      hFailures⟩

theorem exists_reads (hFilled : r.source.Filled) (hLimit : r.limit.toNat + 1 < UInt64.size)
    (hAwaited : r.awaited = line ++ newline :: rest) (hLine : newline ∉ line)
    (hText : dropReturn line = utf8 text) (hFits : (utf8 text).length ≤ r.limit.toNat) :
    ∃ next, Reads r [text] next := by
  induction hFailures : r.source.failures generalizing r with
  | nil =>
    rcases readLine_of_fitting hFilled hLimit hAwaited hLine hText hFits with
      ⟨next, hRead⟩ | ⟨fault, next, -, -, -, -, hMore⟩
    · exact ⟨next, .text hRead (.done next)⟩
    · cases hFailures.symm.trans hMore
  | cons first failures ih =>
    rcases readLine_of_fitting hFilled hLimit hAwaited hLine hText hFits with
      ⟨next, hRead⟩ | ⟨fault, next, hRead, hContinues, hNext, hSame, hMore⟩
    · exact ⟨next, .text hRead (.done next)⟩
    · cases hFailures.symm.trans hMore
      rw [← hContinues.limit] at hLimit hFits
      obtain ⟨last, hLast⟩ := ih hNext hLimit (hSame.trans hAwaited) hFits rfl
      exact ⟨last, .failure hRead hLast⟩

theorem takesFitting (hLimit : limit.toNat + 1 < UInt64.size) : TakesFitting limit := by
  intro source texts r line after text hFilled hReads hPieces hAfter hText hFits
  obtain ⟨hContinues, hNext, hSplit, hSuffix⟩ := hReads.awaited hFilled hLimit hPieces
  obtain ⟨hLine, rest, hAwaited⟩ := exists_of_splitOn hSplit hAfter
  have hSame : r.limit = limit := hContinues.limit
  subst hSame
  refine ⟨?_, exists_reads hNext hLimit hAwaited hLine hText hFits⟩
  rcases readLine_of_fitting hNext hLimit hAwaited hLine hText hFits with
    ⟨next, hRead⟩ | ⟨fault, next, hRead, -, -, -, hMore⟩
  · exact .inl (hRead ▸ rfl)
  · refine .inr ⟨fault, hSuffix.subset ?_, hRead ▸ rfl⟩
    rw [hMore]
    exact List.mem_cons_self

theorem not_takesFitting : ¬ TakesFitting (-1) := by
  intro h
  have hFilled : Source.Filled ⟨[.data (utf8 "P"), .data (utf8 "ING\n")], true⟩ := by decide
  obtain ⟨hTaken | ⟨fault, hFault, -⟩, -⟩ :=
    h _ [] _ (utf8 "PING") [[]] "PING" hFilled (.done _) rfl (by decide) rfl (by decide)
  · cases (congrArg Prod.fst (readLine_of_greatest _)).symm.trans hTaken
  · cases hFault

theorem eq_greatest {limit : UInt64} (h : ¬ limit.toNat + 1 < UInt64.size) : limit = -1 := by
  have hLt := limit.toNat_lt
  have hGreatest : (-1 : UInt64).toNat = UInt64.size - 1 := rfl
  apply UInt64.toNat_inj.mp
  simp only [UInt64.size] at *
  omega

theorem exists_threshold_iff (limit : UInt64) :
    (∃ threshold, threshold? limit = some threshold ∧ threshold.toNat = limit.toNat + 1) ↔
      limit.toNat + 1 < UInt64.size := by
  refine ⟨?_, threshold?_eq⟩
  rintro ⟨threshold, -, hThreshold⟩
  exact hThreshold ▸ threshold.toNat_lt

/-- No line that fits is refused, just where one more than the limit is a number of 64 bits, so that
it is the threshold: that is for every limit but the greatest. -/
theorem takesFitting_iff (limit : UInt64) :
    (TakesFitting limit ↔ limit.toNat + 1 < UInt64.size) ∧
      ((∃ threshold, threshold? limit = some threshold ∧ threshold.toNat = limit.toNat + 1) ↔
        limit.toNat + 1 < UInt64.size) := by
  refine ⟨⟨fun hTakes => ?_, takesFitting⟩, exists_threshold_iff limit⟩
  by_contra hLimit
  rw [eq_greatest hLimit] at hTakes
  exact not_takesFitting hTakes

/-- The line and its return are one byte longer than the limit when a read fails. -/
theorem takes_line_of_limit :
    ∃ next, Reads (ofSource ⟨[.data (utf8 "PI"), .data (utf8 "NG\r"), .fault ⟨.timedOut, ""⟩,
      .data (utf8 "\n")], true⟩ 4) ["PING"] next :=
  ((takesFitting_iff 4).1.mpr (by decide) _ [] _ (utf8 "PING\r") [[]] "PING" (by decide) (.done _)
    rfl (by decide) rfl (by decide)).2

/-- A server may be configured with the greatest limit, and then panics where a line arrives. -/
theorem fitting_line_refused :
    let c : Config := { maxLineLength := -1 }
    c.validate = .ok () ∧ (utf8 "PING").length ≤ c.maxLineLength.toNat ∧
      threshold? c.maxLineLength = none ∧
      (ofSource ⟨[.data (utf8 "P"), .data (utf8 "ING\n")], true⟩ c.maxLineLength).readLine.1 =
        .panic ∧
      ¬ TakesFitting c.maxLineLength :=
  ⟨rfl, by decide, rfl, congrArg Prod.fst (readLine_of_greatest _), not_takesFitting⟩

end LineReader
end Keyspace
