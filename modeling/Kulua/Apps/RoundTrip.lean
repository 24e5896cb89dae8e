import Kulua.Apps.AppList

/-! Which lists of applications come back from the text that is printed for them. -/

namespace Kulua.Apps
open Foundation.Text

def marker (system : Bool) : Str := if system then " * ".toList else " - ".toList

/-- The lines printed for an application: the package on the line of the name, or on one of
its own when the name fills the column. -/
def entryLines (app : AppInfo) : List Str :=
  if utf16Length app.label < column then
    [marker app.system ++ (app.label ++ spaces (column - utf16Length app.label) ++ ' ' :: app.packageName)]
  else [marker app.system ++ app.label, ' ' :: ' ' :: ' ' :: (spaces (column + 1) ++ app.packageName)]

/-- A name on one line without blanks at its end, and a valid package. -/
structure Printable (app : AppInfo) : Prop where
  line : '\n' ∉ app.label
  trimmed : trimEnd app.label = app.label
  package : isValidPackageName app.packageName = true

theorem entry_eq (app : AppInfo) (rest : Str) :
    entry app ++ '\n' :: rest = '\n' :: (unlines (entryLines app) ++ rest) := by
  by_cases h : utf16Length app.label < column
  · have hnat : ((column : Int) - utf16Length app.label).toNat = column - utf16Length app.label := by
      omega
    cases hs : app.system <;>
      simp [entry, entryLines, marker, unlines, h, hnat, hs]
  · have hspaces : spaces (column + 1) = spaces column ++ [' '] := by
      rw [spaces, List.replicate_succ', spaces]
    cases hs : app.system <;>
      simp [entry, entryLines, marker, unlines, h, hs, hspaces]

/-- The printed text, line by line. -/
theorem printApps_eq (apps : List AppInfo) :
    printApps apps = unlines (header :: apps.flatMap entryLines) := by
  have hentries : ∀ apps : List AppInfo,
      apps.flatMap entry ++ ['\n'] = '\n' :: unlines (apps.flatMap entryLines) := by
    intro apps
    induction apps with
    | nil => rfl
    | cons app apps ih =>
        rw [List.flatMap_cons, List.append_assoc, ih, entry_eq]
        simp [unlines]
  rw [printApps, List.append_assoc, hentries]
  simp [unlines]

section Package
variable {pkg : Str}

theorem isValidSegment_char {s : Str} (h : isValidSegment s = true) :
    ∀ c ∈ s, c.isAlphanum ∨ c = '_' := by
  cases s with
  | nil => simp
  | cons c s =>
      simp only [isValidSegment, Bool.and_eq_true, List.all_eq_true, Bool.or_eq_true,
        beq_iff_eq] at h
      intro d hd
      rcases List.mem_cons.mp hd with rfl | hd
      · exact Or.inl (by simp [Char.isAlphanum, h.1])
      · exact h.2 d hd

theorem mem_splitOn {α : Type*} [DecidableEq α] {a : α} {xs : List α} {c : α} (hc : c ∈ xs) :
    c = a ∨ ∃ segment ∈ xs.splitOn a, c ∈ segment := by
  induction xs with
  | nil => cases hc
  | cons x xs ih =>
      rw [List.splitOn_cons_eq_if_modifyHead]
      obtain ⟨head, tail, hsplit⟩ := List.exists_cons_of_ne_nil (List.splitOn_ne_nil a xs)
      rw [hsplit] at ih ⊢
      rcases List.mem_cons.mp hc with rfl | hc
      · by_cases hca : c = a
        · exact Or.inl hca
        · exact Or.inr ⟨c :: head, by simp [hca], List.mem_cons_self ..⟩
      · refine (ih hc).imp_right fun ⟨segment, hsegment, hmem⟩ => ?_
        by_cases hxa : x = a
        · exact ⟨segment, by simp [hxa, List.mem_cons.mp hsegment], hmem⟩
        · rcases List.mem_cons.mp hsegment with rfl | htail
          · exact ⟨x :: segment, by simp [hxa], List.mem_cons_of_mem x hmem⟩
          · exact ⟨segment, by simp [hxa, htail], hmem⟩

/-- A package name is ASCII without blanks. -/
theorem package_char (h : isValidPackageName pkg = true) :
    ∀ c ∈ pkg, c.isAlphanum ∨ c = '_' ∨ c = '.' := by
  rw [isValidPackageName] at h
  split at h
  · exact absurd h Bool.false_ne_true
  · intro c hc
    rw [List.all_eq_true] at h
    rcases mem_splitOn (a := '.') hc with hdot | ⟨segment, hsegment, hmem⟩
    · exact Or.inr (Or.inr hdot)
    · exact (isValidSegment_char (h segment hsegment) c hmem).imp_right Or.inl

theorem package_ne_nil (h : isValidPackageName pkg = true) : pkg ≠ [] := by
  rintro rfl
  exact absurd h (by decide)

theorem package_solid (h : isValidPackageName pkg = true) :
    ∀ c ∈ pkg, isWhitespace c = false := by
  intro c hc
  have hascii : 0x21 ≤ c.toNat ∧ c.toNat < 0x80 := by
    rcases package_char h c hc with halnum | rfl | rfl
    · delta Char.isAlphanum Char.isAlpha Char.isUpper Char.isLower Char.isDigit at halnum
      simp only [Bool.or_eq_true, Bool.and_eq_true, decide_eq_true_eq,
        UInt32.le_iff_toNat_le] at halnum
      change ((65 ≤ c.toNat ∧ c.toNat ≤ 90) ∨ (97 ≤ c.toNat ∧ c.toNat ≤ 122)) ∨
        (48 ≤ c.toNat ∧ c.toNat ≤ 57) at halnum
      omega
    · decide
    · decide
  simp only [isWhitespace, decide_eq_false_iff_not]
  omega

end Package

/-- The application as the parser has it once its lines are read. -/
def readBack (app : AppInfo) : AppInfo :=
  let blank : AppInfo := { packageName := [], label := [], system := app.system }
  if utf16Length app.label < column then
    parseAppLine blank
      (app.label ++ spaces (column - utf16Length app.label) ++ ' ' :: app.packageName)
  else
    let named := parseAppLine blank app.label
    if named.packageName = [] then { named with packageName := app.packageName } else named

def finished (app : AppInfo) : Option AppInfo :=
  if app.packageName = [] then none else some app

theorem finishApp_some (apps : List AppInfo) (app : AppInfo) :
    finishApp apps (some app) = apps ++ (finished app).toList := by
  rw [finishApp, finished]
  split <;> simp

theorem trimEndMatches_solid {s line : Str} (hs : s ≠ [])
    (hlast : isWhitespace (s.getLast hs) = false) (hend : s <:+ line) :
    trimEndMatches '\r' line = line := by
  refine trimEndMatches_eq_self fun hne hcr => ?_
  obtain ⟨front, rfl⟩ := hend
  rw [List.getLast_append_of_ne_nil _ hs] at hcr
  rw [hcr] at hlast
  exact absurd hlast (by decide)

theorem label_ne_nil {app : AppInfo} (hlong : ¬utf16Length app.label < column) :
    app.label ≠ [] := by
  intro h
  rw [h] at hlong
  exact hlong (by decide)

/-- No line ends in a `\r`. -/
theorem entryLines_trimmed {app : AppInfo} (ok : Printable app) :
    (entryLines app).map (trimEndMatches '\r') = entryLines app := by
  have hpkg := package_ne_nil ok.package
  have hpackage {line : Str} : app.packageName <:+ line → trimEndMatches '\r' line = line :=
    trimEndMatches_solid hpkg (package_solid ok.package _ (List.getLast_mem hpkg))
  by_cases hshort : utf16Length app.label < column
  · have hend : app.packageName <:+ app.label ++ spaces (column - utf16Length app.label) ++
        ' ' :: app.packageName :=
      ⟨app.label ++ spaces (column - utf16Length app.label) ++ [' '], by simp⟩
    rw [entryLines, if_pos hshort, List.map_singleton,
      hpackage (hend.trans (List.suffix_append _ _))]
  · have hlabel := label_ne_nil hshort
    have hname {line : Str} : app.label <:+ line → trimEndMatches '\r' line = line :=
      trimEndMatches_solid hlabel (getLast_of_trimEnd ok.trimmed hlabel)
    have hend : app.packageName <:+ ' ' :: ' ' :: ' ' :: (spaces (column + 1) ++ app.packageName) :=
      ⟨' ' :: ' ' :: ' ' :: spaces (column + 1), rfl⟩
    rw [entryLines, if_neg hshort, List.map_cons, List.map_singleton,
      hname (List.suffix_append _ _), hpackage hend]

theorem onLine_marker {p : Parser} (hlist : p.inList = true) (system : Bool) (rest : Str) :
    p.onLine (marker system ++ rest) = p.begin system rest := by
  cases system <;> simp [Parser.onLine, marker, hlist]

theorem onLine_package {p : Parser} (hlist : p.inList = true) {app : AppInfo}
    (hcurrent : p.current = some app) (n : Nat) {pkg : Str}
    (hsolid : ∀ c ∈ pkg, isWhitespace c = false) :
    p.onLine (' ' :: ' ' :: ' ' :: (spaces n ++ pkg)) =
      { p with
        current := some (if app.packageName = [] then { app with packageName := pkg } else app) } := by
  have htrim : trim (' ' :: ' ' :: ' ' :: (spaces n ++ pkg)) = pkg :=
    trim_spaces_append hsolid (n + 3)
  by_cases hpkg : app.packageName = []
  · simp [Parser.onLine, hlist, hcurrent, hpkg]
    exact htrim
  · obtain ⟨apps, inList, current⟩ := p
    obtain rfl : current = some app := hcurrent
    obtain rfl : inList = true := hlist
    simp [Parser.onLine, hpkg]

/-- The lines of an application finish the one before it and leave it as the current one. -/
theorem onLine_entry {p : Parser} (hlist : p.inList = true) {app : AppInfo}
    (ok : Printable app) :
    (entryLines app).foldl Parser.onLine p =
      { p with apps := finishApp p.apps p.current, current := some (readBack app) } := by
  by_cases hshort : utf16Length app.label < column
  · rw [entryLines, if_pos hshort, List.foldl_cons, onLine_marker hlist, List.foldl_nil,
      Parser.begin, readBack, if_pos hshort]
  · have hpackage := onLine_package (p := p.begin app.system app.label) hlist rfl (column + 1)
      (package_solid ok.package)
    rw [entryLines, if_neg hshort, List.foldl_cons, onLine_marker hlist, List.foldl_cons,
      List.foldl_nil, hpackage, Parser.begin, readBack, if_neg hshort]

theorem onLine_entries {apps : List AppInfo} (ok : ∀ app ∈ apps, Printable app) {p : Parser}
    (hlist : p.inList = true) :
    ((apps.flatMap entryLines).foldl Parser.onLine p).finish =
      p.finish ++ apps.filterMap fun app => finished (readBack app) := by
  induction apps generalizing p with
  | nil => simp
  | cons app apps ih =>
      have happs : ∀ app ∈ apps, Printable app := fun app h => ok app (List.mem_cons_of_mem _ h)
      have hrest := ih happs (p := { p with
        apps := finishApp p.apps p.current, current := some (readBack app) }) hlist
      rw [List.flatMap_cons, List.foldl_append, onLine_entry hlist (ok app (List.mem_cons_self ..)),
        hrest, Parser.finish, finishApp_some, List.append_assoc, List.filterMap_cons]
      cases finished (readBack app) <;> rfl

/-- Lines in front of the header are skipped. -/
theorem onLine_preamble {preamble : List Str} (h : ∀ line ∈ preamble, ¬header <:+: line)
    (rest : List Str) :
    ((preamble ++ header :: rest).map (trimEndMatches '\r')).foldl Parser.onLine {} =
      (rest.map (trimEndMatches '\r')).foldl Parser.onLine { inList := true } := by
  induction preamble with
  | nil =>
      have hheader : trimEndMatches '\r' header = header := by decide
      rw [List.nil_append, List.map_cons, hheader, List.foldl_cons]
      rfl
  | cons line preamble ih =>
      have hline : ¬header <:+: trimEndMatches '\r' line := fun hin =>
        h line (List.mem_cons_self ..) (hin.trans (List.rdropWhile_prefix _ _).isInfix)
      rw [List.cons_append, List.map_cons, List.foldl_cons]
      have hskip : Parser.onLine {} (trimEndMatches '\r' line) = {} := by
        simp [Parser.onLine, hline]
      rw [hskip]
      exact ih fun line hmem => h line (List.mem_cons_of_mem _ hmem)

theorem entryLines_newline {app : AppInfo} (ok : Printable app) :
    ∀ line ∈ entryLines app, '\n' ∉ line := by
  have hpkg : '\n' ∉ app.packageName := fun h =>
    absurd (package_solid ok.package _ h) (by decide)
  have hspaces (n : Nat) : '\n' ∉ spaces n := by simp [spaces]
  have hmarker : '\n' ∉ marker app.system := by
    cases app.system <;> decide
  intro line hline
  rw [entryLines] at hline
  split at hline
  · obtain rfl := List.mem_singleton.mp hline
    simp [hmarker, ok.line, hspaces, hpkg]
  · rcases List.mem_cons.mp hline with rfl | hline
    · simp [hmarker, ok.line]
    · obtain rfl := List.mem_singleton.mp hline
      simp [hspaces, hpkg]

/-- What comes back of a printed list: of each application what its own lines say. -/
theorem parse_printApps {preamble : List Str}
    (hpreamble : ∀ line ∈ preamble, '\n' ∉ line ∧ ¬header <:+: line) {apps : List AppInfo}
    (ok : ∀ app ∈ apps, Printable app) :
    parseAppsOutput (unlines preamble ++ printApps apps) =
      apps.filterMap fun app => finished (readBack app) := by
  have htext : unlines preamble ++ printApps apps =
      unlines (preamble ++ header :: apps.flatMap entryLines) := by
    rw [printApps_eq]
    simp [unlines]
  have hlines : ∀ line ∈ preamble ++ header :: apps.flatMap entryLines, '\n' ∉ line := by
    intro line hline
    rcases List.mem_append.mp hline with hline | hline
    · exact (hpreamble line hline).1
    · rcases List.mem_cons.mp hline with rfl | hline
      · decide
      · obtain ⟨app, happ, hentry⟩ := List.mem_flatMap.mp hline
        exact entryLines_newline (ok app happ) line hentry
  have htrimmed : (apps.flatMap entryLines).map (trimEndMatches '\r') =
      apps.flatMap entryLines := by
    rw [List.map_flatMap]
    exact List.flatMap_congr fun app happ => entryLines_trimmed (ok app happ)
  rw [parseAppsOutput, htext, lines_unlines hlines,
    onLine_preamble fun line hline => (hpreamble line hline).2, htrimmed, onLine_entries ok rfl]
  rfl

/-- The names that come back: the padding, counted in UTF-16 units, ends at the column where
the parser, which counts characters, expects it; a name that fills the column in units but
not in characters has no blanks in front; no name has a space behind its first 30 characters. -/
structure Aligned (label : Str) : Prop where
  units : utf16Length label < column → ∀ c ∈ label, c.toNat < 0x10000
  front : column ≤ utf16Length label → label.length < column → trimStart label = label
  space : label[column]? ≠ some ' '

theorem parseAppLine_narrow {app : AppInfo} {rest : Str} (h : rest.length < column) :
    parseAppLine app rest = { app with label := trim rest } := if_pos h

theorem parseAppLine_name {app : AppInfo} {rest : Str} (hlong : ¬rest.length < column)
    (hspace : rest[column]? ≠ some ' ') : parseAppLine app rest = { app with label := rest } := by
  have hhead : (rest.drop 30).head? ≠ some ' ' := by rwa [List.head?_drop]
  rw [parseAppLine, if_neg (show ¬rest.length < 30 from hlong)]
  exact if_neg hhead

/-- With a space at the column the name is cut there. -/
theorem parseAppLine_cut {app : AppInfo} {rest : Str} (hspace : rest[column]? = some ' ') :
    (parseAppLine app rest).label.length ≤ column := by
  have hlong : ¬rest.length < 30 := by
    obtain ⟨h, -⟩ := List.getElem?_eq_some_iff.mp hspace
    exact Nat.not_lt.mpr h.le
  have hhead : (rest.drop 30).head? = some ' ' := by rwa [List.head?_drop]
  have htrim : (trimEnd (rest.take 30)).length ≤ 30 :=
    (List.rdropWhile_prefix _ _).length_le.trans (List.length_take_le ..)
  rw [parseAppLine, if_neg hlong]
  simp only [hhead, if_true]
  exact htrim

section ReadBack
variable {app : AppInfo}

theorem readBack_padded (ok : Printable app) (hshort : utf16Length app.label < column)
    (hunits : utf16Length app.label = app.label.length) : readBack app = app := by
  have hpadded : (app.label ++ spaces (column - utf16Length app.label)).length = 30 := by
    rw [column] at hshort ⊢
    rw [List.length_append, spaces, List.length_replicate]
    omega
  have hpackage : trim (' ' :: app.packageName) = app.packageName :=
    trim_spaces_append (package_solid ok.package) 1
  have hlong : ¬(app.label ++ spaces (column - utf16Length app.label) ++
      ' ' :: app.packageName).length < 30 := by
    rw [List.length_append, hpadded]
    omega
  rw [readBack, if_pos hshort, parseAppLine, if_neg hlong, List.take_left' hpadded,
    List.drop_left' hpadded]
  simp [hpackage, trimEnd_append_spaces ok.trimmed, package_ne_nil ok.package]

/-- Padding that ends in front of the column puts the package, or nothing, there. -/
theorem readBack_dropped (ok : Printable app) (hshort : utf16Length app.label < column)
    (hunits : app.label.length < utf16Length app.label) : (readBack app).packageName = [] := by
  have hpadded : (app.label ++ spaces (column - utf16Length app.label) ++ [' ']).length ≤ 30 := by
    rw [column] at hshort ⊢
    simp only [List.length_append, spaces, List.length_replicate, List.length_singleton]
    omega
  have hhead (n : Nat) : (app.packageName.drop n).head? ≠ some ' ' := fun h =>
    absurd (package_solid ok.package _ (List.mem_of_mem_drop (List.mem_of_mem_head? h)))
      (by decide)
  rw [readBack, if_pos hshort, parseAppLine]
  split
  · rfl
  · rw [List.append_cons, List.drop_append, List.drop_eq_nil_of_le hpadded, List.nil_append]
    rw [if_neg (hhead _)]

theorem readBack_narrow (ok : Printable app) (hlong : ¬utf16Length app.label < column)
    (hnarrow : app.label.length < column) :
    readBack app = { app with label := trimStart app.label } := by
  rw [readBack, if_neg hlong, parseAppLine_narrow hnarrow, trim, ok.trimmed]
  rfl

theorem readBack_wide (hlong : ¬utf16Length app.label < column)
    (hwide : ¬app.label.length < column) (hspace : app.label[column]? ≠ some ' ') :
    readBack app = app := by
  rw [readBack, if_neg hlong, parseAppLine_name hwide hspace]
  rfl

theorem readBack_cut (hlong : ¬utf16Length app.label < column)
    (hspace : app.label[column]? = some ' ') : (readBack app).label ≠ app.label := by
  have hcut : (parseAppLine { packageName := [], label := [], system := app.system }
      app.label).label.length ≤ column := parseAppLine_cut hspace
  obtain ⟨hlength, -⟩ := List.getElem?_eq_some_iff.mp hspace
  have hlabel : (readBack app).label =
      (parseAppLine { packageName := [], label := [], system := app.system } app.label).label := by
    rw [readBack, if_neg hlong]
    dsimp only
    split <;> rfl
  intro h
  rw [← hlabel, h] at hcut
  omega

end ReadBack

theorem finished_readBack {app : AppInfo} (ok : Printable app) :
    finished (readBack app) = some app ↔ Aligned app.label := by
  have hpkg : finished app = some app := if_neg (package_ne_nil ok.package)
  have hle := length_le_utf16Length app.label
  by_cases hshort : utf16Length app.label < column
  · have hnone : app.label[column]? ≠ some ' ' := by
      rw [List.getElem?_eq_none (by omega)]
      nofun
    by_cases hunits : utf16Length app.label = app.label.length
    · rw [readBack_padded ok hshort hunits]
      exact ⟨fun _ => ⟨fun _ => utf16Length_eq_length.mp hunits,
        fun h => absurd hshort (Nat.not_lt.mpr h), hnone⟩, fun _ => hpkg⟩
    · have hdropped := readBack_dropped ok hshort (by omega)
      rw [finished, if_pos hdropped]
      exact ⟨nofun, fun h => absurd (utf16Length_eq_length.mpr (h.units hshort)) hunits⟩
  · by_cases hnarrow : app.label.length < column
    · have hnone : app.label[column]? ≠ some ' ' := by
        rw [List.getElem?_eq_none (by omega)]
        nofun
      rw [readBack_narrow ok hshort hnarrow, finished, if_neg (package_ne_nil ok.package)]
      constructor
      · intro h
        have hlabel : trimStart app.label = app.label :=
          congrArg AppInfo.label (Option.some.inj h)
        exact ⟨fun h => absurd h hshort, fun _ _ => hlabel, hnone⟩
      · intro h
        rw [h.front (Nat.not_lt.mp hshort) hnarrow]
    · by_cases hspace : app.label[column]? = some ' '
      · have hcut := readBack_cut hshort hspace
        refine ⟨fun h => ?_, fun h => absurd hspace h.space⟩
        rw [finished] at h
        split at h
        · cases h
        · exact absurd (congrArg AppInfo.label (Option.some.inj h)) hcut
      · rw [readBack_wide hshort hnarrow hspace]
        exact ⟨fun _ => ⟨fun h => absurd h hshort, fun _ h => absurd h hnarrow, hspace⟩,
          fun _ => hpkg⟩

theorem filterMap_eq_self {α : Type*} (f : α → Option α) (xs : List α) :
    xs.filterMap f = xs ↔ ∀ x ∈ xs, f x = some x := by
  induction xs with
  | nil => simp
  | cons x xs ih =>
      have hlength := List.length_filterMap_le f xs
      rw [List.filterMap_cons, List.forall_mem_cons, ← ih]
      cases hx : f x with
      | none =>
          have hne : xs.filterMap f ≠ x :: xs := fun h => by
            rw [h, List.length_cons] at hlength
            omega
          simp [hne]
      | some y => simp

theorem parse_printApps_eq {preamble : List Str}
    (hpreamble : ∀ line ∈ preamble, '\n' ∉ line ∧ ¬header <:+: line) {apps : List AppInfo}
    (ok : ∀ app ∈ apps, Printable app) :
    parseAppsOutput (unlines preamble ++ printApps apps) = apps ↔
      ∀ app ∈ apps, Aligned app.label := by
  rw [parse_printApps hpreamble ok, filterMap_eq_self]
  exact forall₂_congr fun app happ => finished_readBack (ok app happ)

/-- The sorted list of the launchable applications, whatever the package manager has. -/
theorem parse_runAndExit {preamble : List Str}
    (hpreamble : ∀ line ∈ preamble, '\n' ∉ line ∧ ¬header <:+: line) {installed : List Installed}
    (ok : ∀ app ∈ launchable installed, Printable app) :
    parseAppsOutput (unlines preamble ++ runAndExit (.ok installed)) =
        (launchable installed).mergeSort (fun a b => (compareApps a b).isLE) ↔
      ∀ app ∈ launchable installed, Aligned app.label := by
  have hmem (app : AppInfo) :
      app ∈ (launchable installed).mergeSort (fun a b => (compareApps a b).isLE) ↔
        app ∈ launchable installed := List.mem_mergeSort
  rw [runAndExit, parse_printApps_eq hpreamble fun app h => ok app ((hmem app).mp h)]
  exact forall_congr' fun app => by rw [hmem]

/-- A printed list comes back as it was exactly when each of its names is aligned. -/
theorem app_list_round_trip (preamble : List Str)
    (hpreamble : ∀ line ∈ preamble, '\n' ∉ line ∧ ¬header <:+: line) (apps : List AppInfo)
    (ok : ∀ app ∈ apps, Printable app) :
    parseAppsOutput (unlines preamble ++ printApps apps) = apps ↔
      ∀ app ∈ apps, Aligned app.label :=
  parse_printApps_eq hpreamble ok

def settings : AppInfo :=
  { packageName := "com.android.settings".toList, label := "Settings".toList, system := true }

theorem app_list_round_trip_settings :
    parseAppsOutput (unlines ["Processing".toList] ++ printApps [settings]) = [settings] ↔
      ∀ app ∈ [settings], Aligned app.label :=
  app_list_round_trip ["Processing".toList] (by decide) [settings]
    (by
      intro app happ
      obtain rfl := List.mem_singleton.mp happ
      exact ⟨by decide, by decide, by decide⟩)

/-- A name of one supplementary character: its line is one column short, and the application
is lost. -/
def smile : AppInfo := { packageName := "a.b".toList, label := ['😀'], system := false }

theorem app_list_round_trip_smile :
    Printable smile ∧ parseAppsOutput (printApps [smile]) ≠ [smile] :=
  ⟨⟨by decide, by decide, by decide⟩, by decide⟩

end Kulua.Apps
