import SoftwareHub.Storage.OriginalFilename

/-! Device names and double extensions, read as Windows reads them: by the
components between the dots, blanks around them ignored. -/
namespace SoftwareHub.Storage

open SoftwareHub.Python SoftwareHub.Semantics

def isBlank (c : Nat) : Bool := c == 0x20

/-- The part before the first dot, which Windows compares with the names of
devices. -/
def firstComponent (value : PyStr) : PyStr := value.takeWhile (· != 0x2E)

/-- The components between the first dot and the last one, each of which may look
like an extension. -/
def innerComponents (value : PyStr) : List PyStr := ((value.splitOn 0x2E).drop 1).dropLast

section Names

variable (unicode : Unicode) (value : PyStr)

/-- Neither a device nor a double extension, whatever blanks stand around the
components. -/
structure HonestName : Prop where
  device : unicode.casefold ((firstComponent value).rdropWhile isBlank) ∉ windowsReservedNames
  inner : ∀ component ∈ innerComponents value,
    unicode.casefold (0x2E :: stripOf isBlank component) ∉ deceptiveInnerExtensions

/-- A device name before the first dot that is not the whole stem: blanks
follow it, or further dots, or the stem is cut elsewhere. -/
def DisguisedDevice : Prop :=
  ∃ device blanks rest, value = device ++ blanks ++ 0x2E :: rest ∧ 0x2E ∉ device ∧
    (∀ c, device.getLast? = some c → isBlank c = false) ∧ (∀ c ∈ blanks, isBlank c = true) ∧
    unicode.casefold device ∈ windowsReservedNames ∧
    (blanks ≠ [] ∨ 0x2E ∈ rest ∨ (unicode.casefold (suffix value)).length ≠ (suffix value).length)

/-- A deceptive extension inside the name with blanks around it, which the
comparison of the suffixes does not recognise. -/
def PaddedExtension : Prop :=
  ∃ component ∈ innerComponents value, stripOf isBlank component ≠ component ∧
    unicode.casefold (0x2E :: stripOf isBlank component) ∈ deceptiveInnerExtensions

end Names

section Accepted

variable {unicode : Unicode} {allowedExtensions : List PyStr} {filename : PyStr} {name : NormalizedFilename}

/-- The part before the first dot of such a text is the device and its blanks. -/
theorem firstComponent_append {device blanks rest : PyStr} (hDevice : 0x2E ∉ device)
    (hLast : ∀ c, device.getLast? = some c → isBlank c = false) (hBlanks : ∀ c ∈ blanks, isBlank c = true) :
    (firstComponent (device ++ blanks ++ 0x2E :: rest)).rdropWhile isBlank = device := by
  have hDots : ∀ c ∈ device ++ blanks, (c != 0x2E) = true := by
    intro c hc
    rw [bne_iff_ne]
    rcases List.mem_append.mp hc with hc | hc
    · exact fun h => hDevice (h ▸ hc)
    · rintro rfl
      exact absurd (hBlanks _ hc) (by decide)
  rw [firstComponent, List.takeWhile_append_of_pos hDots, List.takeWhile_cons_of_neg (by simp), List.append_nil]
  induction blanks using List.reverseRecOn with
  | nil =>
      rw [List.append_nil]
      refine List.rdropWhile_eq_self_iff.mpr fun hNil => ?_
      simp [hLast _ (List.getLast?_eq_some_getLast hNil)]
  | append_singleton blanks c ih =>
      rw [← List.append_assoc, List.rdropWhile_concat_pos _ _ _ (hBlanks c (by simp))]
      exact ih (fun other hm => hBlanks other (by simp [hm])) fun other hm => hDots other (by
        rw [← List.append_assoc]
        exact List.mem_append_left _ hm)

/-- An accepted name has a dot, and its parts are the text before and after the last
one. -/
theorem exists_firstComponent (hFolds : unicode.FoldsAscii) (hSafe : SafeText unicode name.value)
    (hParts : AllowedParts unicode allowedExtensions name) :
    ∃ rest, name.value = firstComponent name.value ++ 0x2E :: rest := by
  have hSuffix : suffix name.value ≠ [] := by
    intro hEmpty
    have hExtension : name.extension = [] := by
      rw [hParts.extension, hEmpty]
      exact hFolds [] (by simp)
    have hStem := hParts.stem
    rw [cutExtension, if_pos hExtension] at hStem
    exact hParts.reserved.1 hStem
  have hDot : 0x2E ∈ name.value := by
    have hEnd := suffix_isSuffix hSafe.ne_special.1 hSafe.separators.1 hSafe.ends.1
    refine hEnd.mem ?_
    rw [suffix] at hSuffix ⊢
    split_ifs at hSuffix ⊢
    · exact List.mem_cons_self
    · exact (hSuffix rfl).elim
  have hRest : name.value.dropWhile (· != 0x2E) ≠ [] := by
    intro h
    exact absurd (List.dropWhile_eq_nil_iff.mp h 0x2E hDot) (by simp)
  obtain ⟨c, rest, hCons⟩ := List.exists_cons_of_ne_nil hRest
  have hFirst := List.head?_dropWhile_not (· != 0x2E) name.value
  rw [hCons] at hFirst
  obtain rfl : c = 0x2E := by simpa using hFirst
  refine ⟨rest, ?_⟩
  rw [firstComponent, ← hCons, List.takeWhile_append_dropWhile]

/-- Without blanks or further dots the device name is the stem, and refused: an
accepted device is a disguised one. -/
theorem disguised_of_device (hFolds : unicode.FoldsAscii) (hSafe : SafeText unicode name.value)
    (hParts : AllowedParts unicode allowedExtensions name)
    (hDevice : unicode.casefold ((firstComponent name.value).rdropWhile isBlank) ∈ windowsReservedNames) :
    DisguisedDevice unicode name.value := by
  obtain ⟨rest, hValue⟩ := exists_firstComponent hFolds hSafe hParts
  have hSplit := List.rdropWhile_append_rtakeWhile (p := isBlank) (l := firstComponent name.value)
  have hNoDot : 0x2E ∉ firstComponent name.value := fun h => by simpa using List.mem_takeWhile_imp h
  refine ⟨(firstComponent name.value).rdropWhile isBlank, (firstComponent name.value).rtakeWhile isBlank, rest,
    by rw [hSplit]; exact hValue, fun h => hNoDot ((List.rdropWhile_prefix _ _).mem h), ?_,
    fun c hc => List.mem_rtakeWhile_imp hc, hDevice, ?_⟩
  · intro c hc
    have hNe : (firstComponent name.value).rdropWhile isBlank ≠ [] := fun h => by rw [h] at hc; cases hc
    have hLast := List.rdropWhile_last_not isBlank (firstComponent name.value) hNe
    rw [List.getLast?_eq_some_getLast hNe, Option.some.injEq] at hc
    rw [← hc]
    exact Bool.eq_false_iff.mpr hLast
  · by_contra hWhole
    rw [not_or, not_or, not_not, not_not] at hWhole
    obtain ⟨hBlanks, hRest, hLength⟩ := hWhole
    rw [hBlanks, List.append_nil] at hSplit
    rw [hSplit] at hDevice
    have hSuffix : suffix name.value = 0x2E :: rest := by
      have hSlash := hSafe.separators.1
      have hHead := hSafe.ends.1
      rw [hValue] at hSlash hHead
      have hEnd := suffix_append hSlash hHead hRest
      rwa [← hValue] at hEnd
    have hStem : name.stem = firstComponent name.value := by
      have hExtension : name.extension.length = rest.length + 1 := by
        rw [hParts.extension, hLength, hSuffix, List.length_cons]
      have hTotal := congrArg List.length hValue
      rw [List.length_append, List.length_cons] at hTotal
      have hTake : name.value.take (firstComponent name.value).length = firstComponent name.value :=
        List.prefix_iff_eq_take.mp (List.takeWhile_prefix _) |>.symm
      rw [hParts.stem, cutExtension, if_neg (fun h => by rw [h] at hExtension; cases hExtension), hExtension,
        (by omega : name.value.length - (rest.length + 1) = (firstComponent name.value).length), hTake]
    exact hParts.reserved.2 (hStem ▸ hDevice)

/-- An accepted name is honest unless a device name or a deceptive extension
is hidden behind blanks or dots. -/
theorem honestName_iff (hFolds : unicode.FoldsAscii)
    (h : normalizeOriginalFilename unicode allowedExtensions filename = .ok name) :
    HonestName unicode name.value ↔
      ¬DisguisedDevice unicode (strip (unicode.nfkc filename)) ∧
        ¬PaddedExtension unicode (strip (unicode.nfkc filename)) := by
  obtain ⟨-, hValue, hSafe, hParts⟩ := normalizeOriginalFilename_eq_ok_iff.mp h
  rw [← hValue]
  constructor
  · intro hHonest
    constructor
    · rintro ⟨device, blanks, rest, hShape, hDot, hLast, hBlanks, hReserved, -⟩
      have hFirst := hHonest.device
      rw [hShape, firstComponent_append hDot hLast hBlanks] at hFirst
      exact hFirst hReserved
    · rintro ⟨component, hMem, -, hDeceptive⟩
      exact hHonest.inner component hMem hDeceptive
  · rintro ⟨hDevice, hPadded⟩
    constructor
    · intro hReserved
      exact hDevice (disguised_of_device hFolds hSafe hParts hReserved)
    · intro component hMem hDeceptive
      by_cases hStrip : stripOf isBlank component = component
      · have hInner : 0x2E :: component ∈ (suffixes name.value).dropLast := by
          rw [suffixes_of_name hSafe.ne_special.1 hSafe.separators.1 hSafe.ends.1, ← List.map_dropLast]
          exact List.mem_map_of_mem hMem
        rw [hStrip] at hDeceptive
        exact hParts.deceptive _ hInner hDeceptive
      · exact hPadded ⟨component, hMem, hStrip, hDeceptive⟩

end Accepted

/-- A version number between the dots is no extension. -/
theorem honestName_sample : HonestName Unicode.ascii (py "7zip.24.09.exe") := by
  have hAccepted : normalizeOriginalFilename Unicode.ascii [py ".exe"] (py "7zip.24.09.exe") =
      .ok ⟨py "7zip.24.09.exe", py "7zip.24.09", py ".exe"⟩ := by decide
  refine (honestName_iff Unicode.ascii_foldsAscii hAccepted).mpr ⟨?_, ?_⟩
  · rintro ⟨device, blanks, rest, hShape, hDot, hLast, hBlanks, hReserved, -⟩
    have hFirst := @firstComponent_append device blanks rest hDot hLast hBlanks
    rw [← hShape] at hFirst
    rw [← hFirst] at hReserved
    revert hReserved
    decide
  · rintro ⟨component, hMem, hStrip, -⟩
    have hPlain : ∀ component ∈ innerComponents (py "7zip.24.09.exe"), stripOf isBlank component = component := by
      decide
    exact hStrip (hPlain component hMem)

/-- `CON` with two suffixes is accepted, and so is `.pdf` with a blank after it. -/
theorem disguised_names_are_accepted :
    normalizeOriginalFilename Unicode.ascii [py ".exe", py ".zip"] (py "CON.anything.zip") =
        .ok ⟨py "CON.anything.zip", py "CON.anything", py ".zip"⟩ ∧
      ¬HonestName Unicode.ascii (py "CON.anything.zip") ∧
      normalizeOriginalFilename Unicode.ascii [py ".exe", py ".zip"] (py "invoice.pdf .exe") =
        .ok ⟨py "invoice.pdf .exe", py "invoice.pdf ", py ".exe"⟩ ∧
      ¬HonestName Unicode.ascii (py "invoice.pdf .exe") := by
  refine ⟨by decide, ?_, by decide, ?_⟩
  · intro h
    have hDevice := h.device
    revert hDevice
    decide
  · intro h
    have hInner := h.inner (py "pdf ") (by decide)
    revert hInner
    decide

end SoftwareHub.Storage
