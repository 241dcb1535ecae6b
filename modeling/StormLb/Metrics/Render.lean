import StormLb.Metrics.Registry
import StormLb.Text.Blocks

/-!
# The text of a scrape

The exposition of what the process has recorded, with the series computed for the scrape.
-/

namespace StormLb.Metrics

open Exposition (decimal)

variable {f64 : F64}

def writeln (line : List Char) : List Char :=
  line ++ ['\n']

/-- A series with the value it is scraped with. -/
abbrev Scraped (f64 : F64) := Series f64.Value

/-- An extra series takes the place of a recorded one. -/
def insertExtra (maps : Scraped f64 × Scraped f64) (extra : String × List Char × f64.Value) :
    Scraped f64 × Scraped f64 :=
  let (counters, gauges) := maps
  let (n, l, v) := extra
  let isCounter := catalog.any fun entry => entry.name = n ∧ entry.ty = .counter
  if isCounter then (counters.insert (n, l) v, gauges) else (counters, gauges.insert (n, l) v)

/-- `le` joins the series' own labels. -/
def withLe (l le : List Char) : List Char :=
  if l.isEmpty then ['{', 'l', 'e', '=', '"'] ++ le ++ ['"', '}']
  else l.dropLast ++ [',', 'l', 'e', '=', '"'] ++ le ++ ['"', '}']

/-- The series of one name, in the order of their labels. -/
def ofName {Value : Type} (name : String) (series : Series Value) : List (Key × Value) :=
  series.toList.filter fun entry => entry.1.1 = name

/-- The line of a counter or a gauge. -/
def valueLine (n : String) (l : List Char) (v : f64.Value) : List Char :=
  writeln (n.toList ++ l ++ ' ' :: f64.display v)

def displayU64 (v : UInt64) : List Char :=
  (toString v.toNat).toList

/-- The lines of a histogram. -/
def histLines (n : String) (l : List Char) (h : Hist f64) : List Char :=
  ((List.finRange buckets.length).flatMap fun i =>
      writeln (n.toList ++ "_bucket".toList ++ withLe l (buckets.get i).text ++
        ' ' :: displayU64 (h.buckets i))) ++
    writeln (n.toList ++ "_bucket".toList ++ withLe l "+Inf".toList ++ ' ' :: displayU64 h.count) ++
    writeln (n.toList ++ "_sum".toList ++ l ++ ' ' :: f64.display h.sum) ++
    writeln (n.toList ++ "_count".toList ++ l ++ ' ' :: displayU64 h.count)

/-- What is written of one metric of the catalogue. -/
def renderOne (counters gauges : Scraped f64) (hists : Series (Hist f64)) (entry : Described) :
    List Char :=
  let body :=
    match entry.ty with
    | .counter => (ofName entry.name counters).flatMap fun ((n, l), v) => valueLine n l v
    | .gauge => (ofName entry.name gauges).flatMap fun ((n, l), v) => valueLine n l v
    | .histogram => (ofName entry.name hists).flatMap fun ((n, l), h) => histLines n l h
  if body.isEmpty then []
  else
    writeln ("# HELP ".toList ++ entry.name.toList ++ ' ' :: entry.help.toList) ++
      writeln ("# TYPE ".toList ++ entry.name.toList ++ ' ' :: entry.ty.text.toList) ++ body

def render (m : Metrics f64) (extra : List (String × List Char × f64.Value)) : List Char :=
  let counters := m.counters.map fun _ v => f64.ofInt v.toNat
  let gauges := m.gauges.map fun _ v => f64.ofInt v.toInt
  let (counters, gauges) := extra.foldl insertExtra (counters, gauges)
  catalog.flatMap (renderOne counters gauges m.hists)

end StormLb.Metrics
