import LogQuery.Runtime
import LogQuery.Yaml.Value
/-!
# A runtime to run the program with

A stack of about a thousand frames, of which a level of lists and maps takes two while it is walked or
read and one while it is written, and the reader of YAML of this project.
-/
namespace LogQuery

/-- A stack of about a thousand frames. -/
@[reducible]
def Runtime.standard : Runtime where
  frames := 980
  levelFrames := 2
  callFrames := 3
  pageDepth frames := (frames + 3) / 2
  textDepth frames := (frames - 5) / 2
  writeDepth frames := frames - 1
  configDepth frames := frames
  yaml _ := Yaml.parse
  pageDepth_mono := by omega
  textDepth_mono := by omega
  writeDepth_mono := by omega
  yaml_steady _ _ := rfl

end LogQuery
