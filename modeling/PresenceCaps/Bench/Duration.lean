import PresenceCaps.Text.Numeral

/-! Durations as they are shown in log records and in debug text. -/
namespace PresenceCaps.Bench

def withoutTrailingZeros (s : String) : String :=
  String.ofList (s.toList.reverse.dropWhile (· == '0')).reverse

/-- In seconds from one second on, with as many decimals as it takes; below that in milliseconds. -/
def durationText (ms : Nat) : String :=
  if ms = 0 then "0ns"
  else if ms < 1000 then s!"{ms}ms"
  else if ms % 1000 = 0 then s!"{ms / 1000}s"
  else toString (ms / 1000) ++ "." ++ withoutTrailingZeros (padded 3 (ms % 1000)) ++ "s"

end PresenceCaps.Bench
