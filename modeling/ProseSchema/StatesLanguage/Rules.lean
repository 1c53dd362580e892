import ProseSchema.Rules.Compile

/-!
# Rules of the States Language

The rule text for state machines of the Amazon States Language.
-/

namespace ProseSchema.StatesLanguage

def rulesText : String := r#"This document specifies a JSON object called a "State Machine".

A State Machine MUST have an object field named "States"; each field is a "State".
A State Machine MUST have a string field named "StartAt".
A State Machine MAY have a string field named "Comment".
A State Machine MAY have a string field named "Version".
A State Machine MAY have a nonnegative-integer field named "TimeoutSeconds".

A State MUST have a string field named "Type" whose value MUST be one of "Pass", "Succeed", "Fail", "Task", "Choice", "Wait", "Parallel", or "Map".
A State MAY have a string field named "Comment".

A State whose "End" field's value is true is a "Terminal State".
A State whose "Type" field's value is "Pass" is a "Pass State".
A State whose "Type" field's value is "Succeed" is a "Succeed State".
A State whose "Type" field's value is "Fail" is a "Fail State".
A State whose "Type" field's value is "Task" is a "Task State".
A State whose "Type" field's value is "Choice" is a "Choice State".
A State whose "Type" field's value is "Wait" is a "Wait State".
A State whose "Type" field's value is "Parallel" is a "Parallel State".
A State whose "Type" field's value is "Map" is a "Map State".

A State which is not a Terminal State, a Succeed State, a Choice State, or a Fail State MUST have a string field named "Next".
Each of a Terminal State, a Succeed State, a Choice State, and a Fail State MUST NOT have a field named "Next".
Each of a Pass State, a Task State, a Wait State, a Parallel State, and a Map State MAY have a boolean field named "End".

Each of a Pass State, a Task State, a Choice State, a Wait State, a Succeed State, a Parallel State, and a Map State MAY have a field named "InputPath".
Each of a Pass State, a Task State, a Choice State, a Wait State, a Succeed State, a Parallel State, and a Map State MAY have a field named "OutputPath".
Each of a Pass State, a Task State, a Parallel State, and a Map State MAY have a nullable-referencePath field named "ResultPath".
Each of a Pass State, a Task State, a Parallel State, and a Map State MAY have an object field named "Parameters".
Each of a Task State, a Parallel State, and a Map State MAY have an object field named "ResultSelector".

A Pass State MAY have a field named "Result".

A Task State MUST have a URI field named "Resource".
A Task State MAY have a positive-integer field named "TimeoutSeconds".
A Task State MAY have a referencePath field named "TimeoutSecondsPath".
A Task State MAY have a positive-integer field named "HeartbeatSeconds".
A Task State MAY have a referencePath field named "HeartbeatSecondsPath".
A Task State MUST have only one of "TimeoutSeconds" and "TimeoutSecondsPath".
A Task State MUST have only one of "HeartbeatSeconds" and "HeartbeatSecondsPath".

Each of a Task State, a Parallel State, and a Map State MAY have an object-array field named "Retry"; each element is a "Retrier".
Each of a Task State, a Parallel State, and a Map State MAY have an object-array field named "Catch"; each element is a "Catcher".

A Retrier MUST have a nonempty-string-array field named "ErrorEquals".
A Retrier MAY have a positive-integer field named "IntervalSeconds".
A Retrier MAY have a nonnegative-integer field named "MaxAttempts" whose value MUST be less than 99999999.
A Retrier MAY have a numeric field named "BackoffRate" whose value MUST be greater than or equal to 1.0.
A Retrier MAY have a positive-integer field named "MaxDelaySeconds".
A Retrier MAY have a string field named "JitterStrategy" whose value MUST be one of "FULL" or "NONE".

A Catcher MUST have a nonempty-string-array field named "ErrorEquals".
A Catcher MUST have a string field named "Next".
A Catcher MAY have a nullable-referencePath field named "ResultPath".

A Choice State MUST have a nonempty-object-array field named "Choices"; each element is a "Choice Rule".
A Choice State MAY have a string field named "Default".

A Choice Rule with a "Variable" field is a "Comparison".
A Choice Rule with an "And" field is a "Boolean Expression".
A Choice Rule with an "Or" field is a "Boolean Expression".
A Choice Rule with a "Not" field is a "Boolean Expression".
A Choice Rule MUST have a field named one of "Variable", "And", "Or", or "Not".
A Choice Rule MAY have a string field named "Comment".

A Boolean Expression MAY have a nonempty-object-array field named "And"; each element is a "Nested Rule".
A Boolean Expression MAY have a nonempty-object-array field named "Or"; each element is a "Nested Rule".
A Boolean Expression MAY have an object field named "Not"; its value is a "Nested Rule".
A Boolean Expression MUST have only one of "And", "Or", and "Not".
A Nested Rule is a "Choice Rule".

A Choice Rule which is not a Nested Rule MUST have a string field named "Next".
A Nested Rule MUST NOT have a field named "Next".

A Comparison MUST have a string field named "Variable".
A Comparison MUST have a field named one of "StringEquals", "StringEqualsPath", "StringLessThan", "StringLessThanPath", "StringGreaterThan", "StringGreaterThanPath", "StringLessThanEquals", "StringLessThanEqualsPath", "StringGreaterThanEquals", "StringGreaterThanEqualsPath", "StringMatches", "NumericEquals", "NumericEqualsPath", "NumericLessThan", "NumericLessThanPath", "NumericGreaterThan", "NumericGreaterThanPath", "NumericLessThanEquals", "NumericLessThanEqualsPath", "NumericGreaterThanEquals", "NumericGreaterThanEqualsPath", "BooleanEquals", "BooleanEqualsPath", "TimestampEquals", "TimestampEqualsPath", "TimestampLessThan", "TimestampLessThanPath", "TimestampGreaterThan", "TimestampGreaterThanPath", "TimestampLessThanEquals", "TimestampLessThanEqualsPath", "TimestampGreaterThanEquals", "TimestampGreaterThanEqualsPath", "IsNull", "IsPresent", "IsNumeric", "IsString", "IsBoolean", or "IsTimestamp".
A Comparison MUST have only one of "StringEquals", "StringEqualsPath", "StringLessThan", "StringLessThanPath", "StringGreaterThan", "StringGreaterThanPath", "StringLessThanEquals", "StringLessThanEqualsPath", "StringGreaterThanEquals", "StringGreaterThanEqualsPath", "StringMatches", "NumericEquals", "NumericEqualsPath", "NumericLessThan", "NumericLessThanPath", "NumericGreaterThan", "NumericGreaterThanPath", "NumericLessThanEquals", "NumericLessThanEqualsPath", "NumericGreaterThanEquals", "NumericGreaterThanEqualsPath", "BooleanEquals", "BooleanEqualsPath", "TimestampEquals", "TimestampEqualsPath", "TimestampLessThan", "TimestampLessThanPath", "TimestampGreaterThan", "TimestampGreaterThanPath", "TimestampLessThanEquals", "TimestampLessThanEqualsPath", "TimestampGreaterThanEquals", "TimestampGreaterThanEqualsPath", "IsNull", "IsPresent", "IsNumeric", "IsString", "IsBoolean", and "IsTimestamp".
A Comparison MAY have a string field named one of "StringEquals", "StringLessThan", "StringGreaterThan", "StringLessThanEquals", "StringGreaterThanEquals", or "StringMatches".
A Comparison MAY have a numeric field named one of "NumericEquals", "NumericLessThan", "NumericGreaterThan", "NumericLessThanEquals", or "NumericGreaterThanEquals".
A Comparison MAY have a boolean field named one of "BooleanEquals", "IsNull", "IsPresent", "IsNumeric", "IsString", "IsBoolean", or "IsTimestamp".
A Comparison MAY have a timestamp field named one of "TimestampEquals", "TimestampLessThan", "TimestampGreaterThan", "TimestampLessThanEquals", or "TimestampGreaterThanEquals".
A Comparison MAY have a referencePath field named one of "StringEqualsPath", "StringLessThanPath", "StringGreaterThanPath", "StringLessThanEqualsPath", "StringGreaterThanEqualsPath", "NumericEqualsPath", "NumericLessThanPath", "NumericGreaterThanPath", "NumericLessThanEqualsPath", "NumericGreaterThanEqualsPath", "BooleanEqualsPath", "TimestampEqualsPath", "TimestampLessThanPath", "TimestampGreaterThanPath", "TimestampLessThanEqualsPath", or "TimestampGreaterThanEqualsPath".

A Wait State MUST have a field named one of "Seconds", "SecondsPath", "Timestamp", or "TimestampPath".
A Wait State MUST have only one of "Seconds", "SecondsPath", "Timestamp", and "TimestampPath".
A Wait State MAY have a nonnegative-integer field named "Seconds".
A Wait State MAY have a referencePath field named "SecondsPath".
A Wait State MAY have a timestamp field named "Timestamp".
A Wait State MAY have a referencePath field named "TimestampPath".

A Parallel State MUST have a nonempty-object-array field named "Branches"; each element is a "State Machine".

A Map State MUST have a field named one of "Iterator" or "ItemProcessor".
A Map State MUST have only one of "Iterator" and "ItemProcessor".
A Map State MAY have an object field named "Iterator"; its value is a "State Machine".
A Map State MAY have an object field named "ItemProcessor"; its value is an "Item Processor".
An Item Processor is a "State Machine".
An Item Processor MAY have an object field named "ProcessorConfig".
A Map State MAY have a field named "ItemsPath".
A Map State MAY have an object field named "ItemSelector".
A Map State MAY have a nonnegative-integer field named "MaxConcurrency".

A Fail State MAY have a string field named "Cause".
A Fail State MAY have a string field named "Error".
"#

def rules : Except RuleError RuleSet :=
  RuleSet.compile rulesText

end ProseSchema.StatesLanguage
