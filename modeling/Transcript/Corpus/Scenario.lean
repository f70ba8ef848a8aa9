-- The corpus that is replayed when none is named: a client fills a sorted set, asks
-- for scores and ranges, moves a member and removes one.
import Transcript.Corpus.Parser

namespace Transcript.Corpus

/-- The lines of the sorted set scenario. The first one is empty, the text ends in a newline. -/
def scenarioLines : List String := [
  "",
  "$ bazel run //client:client -- zscore asdf n1",
  "(nil)",
  "$ bazel run //client:client -- zquery xxx 1 asdf 1 10",
  "(arr) len=0",
  "(arr) end",
  "$ bazel run //client:client -- zadd zset 1 n1",
  "(int) 1",
  "$ bazel run //client:client -- zadd zset 2 n2",
  "(int) 1",
  "$ bazel run //client:client -- zadd zset 1.1 n1",
  "(int) 0",
  "$ bazel run //client:client -- zscore zset n1",
  "(double) 1.1",
  "$ bazel run //client:client -- zquery zset 1 \"\" 0 10",
  "(arr) len=4",
  "(str) n1",
  "(double) 1.1",
  "(str) n2",
  "(double) 2",
  "(arr) end",
  "$ bazel run //client:client -- zquery zset 1.1 \"\" 1 10",
  "(arr) len=2",
  "(str) n2",
  "(double) 2",
  "(arr) end",
  "$ bazel run //client:client -- zquery zset 1.1 \"\" 2 10",
  "(arr) len=0",
  "(arr) end",
  "$ bazel run //client:client -- zrem zset adsf",
  "(int) 0",
  "$ bazel run //client:client -- zrem zset n1",
  "(int) 1",
  "$ bazel run //client:client -- zquery zset 1 \"\" 0 10",
  "(arr) len=2",
  "(str) n2",
  "(double) 2",
  "(arr) end",
  ""]

/-- The text of the sorted set scenario. -/
def scenario : String := String.intercalate "\n" scenarioLines

end Transcript.Corpus
