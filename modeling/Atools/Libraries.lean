import Atools.BuildFolder
import Atools.Setldr
import Mathlib.Data.Nat.Notation

/-!
# The dependency libraries

The labels of alibs.cmd: for every library the sources its label compiles and the options it passes.
What is compiled depends on the settings only through `LIBAROMA_CPU` (the NEON sources of png and
jpeg) and, for drm, through `LIBAROMA_PLATFORM` and `LIBAROMA_DRM`; freetype's options depend on
`LIBAROMA_HARFBUZZ`.
-/

namespace Atools

open Batch

/-- The labels of alibs.cmd that build a library. -/
inductive Lib
  | zlib | png | freetype | jpeg | harfbuzz | drm
  deriving DecidableEq, Repr

namespace Lib

def all : List Lib := [zlib, png, freetype, jpeg, harfbuzz, drm]

def name : Lib → Str
  | zlib => "zlib"
  | png => "png"
  | freetype => "freetype"
  | jpeg => "jpeg"
  | harfbuzz => "harfbuzz"
  | drm => "drm"

/-- The library a name stands for, without regard to letter case. -/
def ofName (i : Str) : Option Lib := all.find? fun l => l.name == fold i

theorem mem_all (l : Lib) : l ∈ all := by cases l <;> decide

theorem ofName_name (l : Lib) : ofName l.name = some l := by cases l <;> decide

end Lib

/-- Source files of the repository, as they are named from a folder under `libs`. -/
def under (folder : String) (files : List String) : List Str :=
  files.map fun f => "..\\..\\..\\".toList ++ folder.toList ++ '\\' :: f.toList

def zlibSources : List Str := under "zlib\\src" [
  "adler32.c", "compress.c", "crc32.c", "deflate.c", "gzclose.c", "gzlib.c", "gzread.c",
  "gzwrite.c", "infback.c", "inflate.c", "inftrees.c", "inffast.c", "trees.c", "uncompr.c",
  "zutil.c"]

def pngOptimizations : List Str := under "png\\arm" [
  "arm_init.c", "filter_neon.S", "filter_neon_intrinsics.c", "palette_neon_intrinsics.c"]

def pngSources : List Str := under "png" [
  "png.c", "pngerror.c", "pngget.c", "pngmem.c", "pngpread.c", "pngread.c", "pngrio.c",
  "pngrtran.c", "pngrutil.c", "pngset.c", "pngtrans.c", "pngwio.c", "pngwrite.c", "pngwtran.c",
  "pngwutil.c"]

def freetypeSources : List Str := under "freetype\\src" [
  "base\\ftbbox.c", "base\\ftbitmap.c", "base\\ftdebug.c", "base\\ftfstype.c", "base\\ftglyph.c",
  "base\\ftlcdfil.c", "base\\ftstroke.c", "base\\fttype1.c", "base\\ftbase.c",
  "base\\ftsystem.c", "base\\ftinit.c", "base\\ftgasp.c", "raster\\raster.c", "sfnt\\sfnt.c",
  "smooth\\smooth.c", "autofit\\autofit.c", "truetype\\truetype.c", "cff\\cff.c",
  "cid\\type1cid.c", "bdf\\bdf.c", "type1\\type1.c", "type42\\type42.c", "winfonts\\winfnt.c",
  "pcf\\pcf.c", "pfr\\pfr.c", "psaux\\psaux.c", "psnames\\psnames.c", "pshinter\\pshinter.c",
  "sdf\\ftsdf.c", "sdf\\ftbsdf.c", "sdf\\ftsdfrend.c", "gzip\\ftgzip.c", "lzw\\ftlzw.c"]

def jpegOptimizations : List Str := under "jpeg" [
  "jsimd_arm_neon.S", "jsimd_neon.c", "jmem-android.c"]

def jpegSources : List Str := under "jpeg" [
  "jcapimin.c", "jcapistd.c", "jccoefct.c", "jccolor.c", "jcdctmgr.c", "jchuff.c", "jcinit.c",
  "jcmainct.c", "jcmarker.c", "jcmaster.c", "jcomapi.c", "jcparam.c", "jcphuff.c", "jcprepct.c",
  "jcsample.c", "jctrans.c", "jdapimin.c", "jdapistd.c", "jdatadst.c", "jdatasrc.c",
  "jdcoefct.c", "jdcolor.c", "jddctmgr.c", "jdhuff.c", "jdinput.c", "jdmainct.c", "jdmarker.c",
  "jdmaster.c", "jdmerge.c", "jdphuff.c", "jdpostct.c", "jdsample.c", "jdtrans.c", "jerror.c",
  "jfdctflt.c", "jfdctfst.c", "jfdctint.c", "jidctflt.c", "jidctfst.c", "jidctint.c",
  "jidctred.c", "jquant1.c", "jquant2.c", "jutils.c", "jmemmgr.c"]

def harfbuzzSources : List Str := under "harfbuzz\\src" [
  "hb-ot-font.cc", "hb-ot-face.cc", "hb-ot-math.cc", "hb-ot-shape.cc",
  "hb-ot-shape-complex-default.cc", "hb-subset-input.cc", "hb-ot-shape-complex-hangul.cc",
  "hb-gobject-structs.cc", "hb-ot-shape-complex-khmer.cc", "hb-map.cc", "hb-ot-metrics.cc",
  "hb-font.cc", "hb-aat-map.cc", "hb-buffer-serialize.cc", "hb-directwrite.cc", "hb-number.cc",
  "hb-face.cc", "hb-shape-plan.cc", "hb-uniscribe.cc", "hb-ot-cff2-table.cc", "hb-ucd.cc",
  "hb-style.cc", "hb-static.cc", "hb-coretext.cc", "hb-ot-shape-complex-syllabic.cc",
  "hb-shaper.cc", "hb-ot-var.cc", "hb-aat-layout.cc", "hb-ot-shape-complex-indic.cc",
  "hb-glib.cc", "hb-ft.cc", "hb-ot-shape-complex-myanmar.cc", "hb-ot-meta.cc", "hb-ot-tag.cc",
  "hb-ot-shape-normalize.cc", "hb-ot-shape-complex-indic-table.cc", "hb-ot-shape-fallback.cc",
  "hb-buffer.cc", "hb-ot-cff1-table.cc", "hb-set.cc", "hb-icu.cc", "hb-subset-cff1.cc",
  "hb-subset-plan.cc", "hb-common.cc", "hb-subset-cff-common.cc", "hb-ot-color.cc",
  "hb-graphite2.cc", "hb-ot-shape-complex-thai.cc", "hb-subset-cff2.cc", "hb-subset.cc",
  "hb-shape.cc", "hb-gdi.cc", "hb-fallback-shape.cc", "hb-blob.cc",
  "hb-ot-shape-complex-hebrew.cc", "hb-draw.cc", "hb-unicode.cc",
  "hb-ot-shape-complex-arabic.cc", "hb-ot-shape-complex-vowel-constraints.cc", "hb-ot-layout.cc",
  "hb-ot-shape-complex-use.cc", "hb-ot-map.cc", "hb-ot-name.cc"]

def drmSources : List Str := under "drm" [
  "xf86drm.c", "xf86drmMode.c", "xf86drmHash.c", "xf86drmRandom.c"]

/-- `:drm` skips itself unless the platform is linux and `LIBAROMA_DRM` is `yes`. -/
def drmNeeded (env : Env) : Bool :=
  isSet env "LIBAROMA_PLATFORM" "linux" && isSet env "LIBAROMA_DRM" "yes"

/-- The sources a label hands to the compiler. -/
def Lib.sources (env : Env) : Lib → List Str
  | .zlib => zlibSources
  | .png => (if isSet env "LIBAROMA_CPU" "neon" then pngOptimizations else []) ++ pngSources
  | .freetype => freetypeSources
  | .jpeg =>
    (if isSet env "LIBAROMA_CPU" "neon" then jpegOptimizations else under "jpeg" ["jmemnobs.c"]) ++
      jpegSources
  | .harfbuzz => harfbuzzSources
  | .drm => if drmNeeded env then drmSources else []

/-- The options a label passes to the compiler. -/
def Lib.flags (env : Env) : Lib → List Str
  | .zlib => [env.text "LA_GENERIC_CFLAGS",
      if isSet env "LIBAROMA_PLATFORM" "linux" then "-DUSE_MMAP" else " ",
      "-I..\\..\\..\\zlib\\src"]
  | .png => [env.text "LA_GENERIC_CFLAGS", "-I..\\..\\..\\png", "-I..\\..\\..\\zlib\\src"]
  | .freetype => [env.text "LA_GENERIC_CFLAGS",
      " -DFT2_BUILD_LIBRARY -DFT_CONFIG_OPTION_SUBPIXEL_RENDERING -DDARWIN_NO_CARBON",
      if isSet env "LIBAROMA_HARFBUZZ" "yes" then
        "-DFT_CONFIG_OPTION_USE_HARFBUZZ -I..\\..\\..\\harfbuzz\\src" else "",
      "-I..\\..\\..\\zlib", "-I..\\..\\..\\freetype\\builds", "-I..\\..\\..\\freetype\\include",
      "-I..\\..\\..\\freetype\\src\\sdf"]
  | .jpeg => [env.text "LA_GENERIC_CFLAGS", "-DAVOID_TABLES",
      if isSet env "LIBAROMA_CPU" "neon" then "-DNV_ARM_NEON -DANDROID_TILE_BASED_DECODE" else "",
      "-I..\\..\\..\\jpeg"]
  | .harfbuzz => [env.text "LA_GENERIC_CFLAGS",
      "-DHB_NO_MT -DHAVE_OT -DHAVE_UCDN -DHAVE_FREETYPE",
      "-I..\\..\\..\\freetype\\builds", "-I..\\..\\..\\freetype\\include",
      "-I..\\..\\..\\harfbuzz\\src"]
  | .drm => [env.text "LA_GENERIC_CFLAGS",
      "-DUSE_MMAP -D_GNU_SOURCE -DMAJOR_IN_SYSMACROS", "-I..\\..\\..\\drm"]

/-! ### No two sources share an object name -/

/-- Every source a label can compile, under any settings. -/
def Lib.everySource : Lib → List Str
  | .zlib => zlibSources
  | .png => pngOptimizations ++ pngSources
  | .freetype => freetypeSources
  | .jpeg => (jpegOptimizations ++ under "jpeg" ["jmemnobs.c"]) ++ jpegSources
  | .harfbuzz => harfbuzzSources
  | .drm => drmSources

theorem Lib.sources_subset (env : Env) (l : Lib) : l.sources env ⊆ l.everySource := by
  cases l with
  | zlib => exact List.Subset.refl _
  | png =>
    show (if isSet env "LIBAROMA_CPU" "neon" then pngOptimizations else []) ++ pngSources
      ⊆ pngOptimizations ++ pngSources
    split
    · exact List.Subset.refl _
    · exact List.subset_append_right _ _
  | freetype => exact List.Subset.refl _
  | jpeg =>
    show (if isSet env "LIBAROMA_CPU" "neon" then jpegOptimizations
        else under "jpeg" ["jmemnobs.c"]) ++ jpegSources
      ⊆ (jpegOptimizations ++ under "jpeg" ["jmemnobs.c"]) ++ jpegSources
    apply List.append_subset.mpr
    refine ⟨?_, List.subset_append_right _ _⟩
    split
    · exact List.Subset.trans (List.subset_append_left _ _) (List.subset_append_left _ _)
    · exact List.Subset.trans (List.subset_append_right _ _) (List.subset_append_left _ _)
  | harfbuzz => exact List.Subset.refl _
  | drm =>
    show (if drmNeeded env then drmSources else []) ⊆ drmSources
    split
    · exact List.Subset.refl _
    · exact List.nil_subset _

/-- All library sources together. -/
def allSources : List Str := Lib.all.flatMap Lib.everySource

theorem mem_allSources {env : Env} {l : Lib} {s : Str} (h : s ∈ l.sources env) :
    s ∈ allSources :=
  List.mem_flatMap.mpr ⟨l, l.mem_all, l.sources_subset env h⟩

theorem map_objectName_under (folder : String) (files : List String) :
    (under folder files).map objectName = files.map fun f => objectName f.toList := by
  rw [under, List.map_map]
  exact List.map_congr_left fun f _ => objectName_append _ _

/-- A clean object name as a number, on which the kernel compares fast. -/
def code (n : Str) : ℕ :=
  if cleanObject n then n.foldl (fun k c => 256 * k + c.toNat) 0 else 0

/-- The one pass over all library sources: their object names are clean and differ. -/
theorem code_objectName_nodup : (0 :: (allSources.map objectName).map code).Nodup := by
  simp only [allSources, Lib.all, List.flatMap_cons, List.flatMap_nil, Lib.everySource,
    zlibSources, pngOptimizations, pngSources, freetypeSources, jpegOptimizations, jpegSources,
    harfbuzzSources, drmSources, List.map_append, map_objectName_under, List.append_nil]
  decide +kernel

theorem cleanObject_objectName {s : Str} (hs : s ∈ allSources) :
    cleanObject (objectName s) = true := by
  by_contra h
  apply (List.nodup_cons.mp code_objectName_nodup).1
  refine List.mem_map.mpr ⟨objectName s, List.mem_map_of_mem hs, ?_⟩
  rw [code, if_neg h]

/-- An object name determines the library source it comes from. -/
theorem objectName_inj {s t : Str} (hs : s ∈ allSources) (ht : t ∈ allSources)
    (h : objectName s = objectName t) : s = t := by
  have hnodup := (List.nodup_cons.mp code_objectName_nodup).2
  rw [List.map_map] at hnodup
  exact List.inj_on_of_nodup_map hnodup hs ht (congrArg code h)

/-- No source belongs to two libraries. -/
theorem Lib.eq_of_mem_sources {env env' : Env} {l l' : Lib} {s : Str} (h : s ∈ l.sources env)
    (h' : s ∈ l'.sources env') : l = l' := by
  have hnodup := (List.nodup_cons.mp code_objectName_nodup).2
  have hall : allSources.Nodup := hnodup.of_map.of_map
  by_contra hne
  have hsymm : Std.Symm (Function.onFun List.Disjoint Lib.everySource) :=
    ⟨fun _ _ h _ hx hx' => h hx' hx⟩
  have hapart := (List.nodup_flatMap.mp hall).2.forall l.mem_all l'.mem_all hne
  exact hapart (l.sources_subset env h) (l'.sources_subset env' h')

end Atools
