namespace IncludeTidy.Text

-- The characters with Unicode's property White_Space.
def isBlank (c : Char) : Bool :=
  let n := c.toNat
  (0x9 ≤ n && n ≤ 0xD) || n == 0x20 || n == 0x85 || n == 0xA0 || n == 0x1680 ||
    (0x2000 ≤ n && n ≤ 0x200A) || n == 0x2028 || n == 0x2029 || n == 0x202F || n == 0x205F ||
    n == 0x3000

def trimStart (cs : List Char) : List Char := cs.dropWhile isBlank

def trimEnd (cs : List Char) : List Char := (cs.reverse.dropWhile isBlank).reverse

def trim (s : String) : String := String.ofList (trimEnd (trimStart s.toList))

def Trimmed (cs : List Char) : Prop :=
  (∀ c, cs.head? = some c → isBlank c = false) ∧ ∀ c, cs.getLast? = some c → isBlank c = false

theorem trimStart_head (cs : List Char) (c : Char) (first : (trimStart cs).head? = some c) :
    isBlank c = false := by
  induction cs with
  | nil => cases first
  | cons d rest ih =>
    unfold trimStart at first ih
    rw [List.dropWhile_cons] at first
    split at first
    · exact ih first
    · rename_i kept
      cases Option.some.inj first
      simpa using kept

theorem trimEnd_last (cs : List Char) (c : Char) (last : (trimEnd cs).getLast? = some c) :
    isBlank c = false := by
  unfold trimEnd at last
  rw [List.getLast?_reverse] at last
  exact trimStart_head cs.reverse c last

theorem trimEnd_begins (cs : List Char) : trimEnd cs <+: cs := by
  have suffixed : cs.reverse.dropWhile isBlank <:+ cs.reverse := List.dropWhile_suffix _
  have flipped := List.reverse_prefix.mpr suffixed
  rwa [List.reverse_reverse] at flipped

theorem head?_of_begins {as bs : List Char} (p : as <+: bs) (c : Char) (first : as.head? = some c) :
    bs.head? = some c := by
  obtain ⟨rest, rfl⟩ := p
  cases as with
  | nil => cases first
  | cons a as => exact first

theorem trimmed_trim (s : String) : Trimmed (trim s).toList := by
  rw [trim, String.toList_ofList]
  exact ⟨fun c first => trimStart_head _ c (head?_of_begins (trimEnd_begins _) c first),
    fun c last => trimEnd_last _ c last⟩

theorem trimStart_of_head {cs : List Char} (open_ : ∀ c, cs.head? = some c → isBlank c = false) :
    trimStart cs = cs := by
  cases cs with
  | nil => rfl
  | cons c rest => simp [trimStart, open_ c rfl]

theorem trimEnd_of_last {cs : List Char} (closed : ∀ c, cs.getLast? = some c → isBlank c = false) :
    trimEnd cs = cs := by
  have start : trimStart cs.reverse = cs.reverse :=
    trimStart_of_head fun c first => closed c (by rwa [List.head?_reverse] at first)
  rw [trimStart] at start
  rw [trimEnd, start, List.reverse_reverse]

theorem trim_of_trimmed {s : String} (trimmed : Trimmed s.toList) : trim s = s := by
  rw [trim, trimStart_of_head trimmed.1, trimEnd_of_last trimmed.2, String.ofList_toList]

@[simp]
theorem trim_trim (s : String) : trim (trim s) = trim s := trim_of_trimmed (trimmed_trim s)

end IncludeTidy.Text
